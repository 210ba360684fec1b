import LayerInference.LayerRanges
import LayerInference.OrderedDicts
import Mathlib.Algebra.Order.Ring.Rat

/-!
# Routes by observed links

The gateway may choose, for every stage, one of several addresses of the next
stage. It keeps the last observation of each address, made by a health request
or by the metrics of a finished call, and takes the address with the least
score. Addresses nobody has observed are probed on demand. A stage uses the
choice that arrives with a frame, or its own default. Numbers are exact, and
what a health request finds out is a parameter.
-/

namespace LayerInference.TopologyRouting

open LayerRanges OrderedDicts

section Module

structure RouteObservation where
  url : Text
  rttMs : ℚ
  bandwidthMbps : ℚ
  deriving DecidableEq

/-- What one health request measures when it succeeds. -/
structure HealthResponse where
  rttMs : ℚ
  contentLength : ℕ

/-- The class state: an observation is listed under its own address. The
addresses asked for their health are recorded in order. -/
structure RouterState where
  observations : OrderedDict Text RouteObservation
  healthRequests : List Text
  keyed : ∀ url observation, observations.get? url = some observation → observation.url = url

def RouterState.initial : RouterState where
  observations := .empty
  healthRequests := []
  keyed _ _ h := by
    rw [OrderedDict.get?_empty] at h
    cases h

/-- The overrides of one generation, by the text of the stage id. -/
abbrev Overrides := OrderedDict Text Text

def routeScore (observation : RouteObservation) : ℚ :=
  let bandwidthPenalty :=
    if 0 < observation.bandwidthMbps then 1000 / observation.bandwidthMbps else 10000
  max 0 observation.rttMs + bandwidthPenalty

/-- `_record_observation`. -/
def recordObservation (state : RouterState) (observation : RouteObservation) : RouterState where
  observations := state.observations.putLast observation.url observation
  healthRequests := state.healthRequests
  keyed url found h := by
    by_cases heq : url = observation.url
    · rw [heq, OrderedDict.get?_putLast_self] at h
      rw [heq, Option.some.inj h]
    · rw [OrderedDict.get?_putLast_other _ _ heq] at h
      exact state.keyed url found h

/-- What the health request number `n` finds out about an address. -/
abbrev Probes := ℕ → Text → Option HealthResponse

variable (probes : Probes)

def probeBandwidth (response : HealthResponse) : ℚ :=
  if 0 < response.rttMs then
    (max 1 response.contentLength : ℕ) * 8 / (response.rttMs / 1000) / 1000000
  else 0

/-- `_probe_candidate`. -/
def probeCandidate (url : Text) (state : RouterState) : Option RouteObservation × RouterState :=
  let asked := { state with healthRequests := state.healthRequests ++ [url] }
  match probes state.healthRequests.length url with
  | none => (none, asked)
  | some response =>
    let observation := ⟨url, response.rttMs, probeBandwidth response⟩
    (some observation, recordObservation asked observation)

/-- `_observation_for_candidate`. -/
def observationForCandidate (url : Text) (state : RouterState) :
    Option RouteObservation × RouterState :=
  match state.observations.get? url with
  | some existing => (some existing, state)
  | none => probeCandidate probes url state

/-- The observations of the candidates that have one, in order. -/
def observeCandidates : List Text → RouterState → List RouteObservation × RouterState
  | [], state => ([], state)
  | url :: rest, state =>
    let first := observationForCandidate probes url state
    let others := observeCandidates rest first.2
    (first.1.toList ++ others.1, others.2)

/-- The first element of the list that the stable sort by score returns. -/
def leastScore (observations : List RouteObservation) : Option RouteObservation :=
  (observations.insertionSort fun a b => routeScore a ≤ routeScore b).head?

/-- `_select_best_candidate`. -/
def selectBestCandidate (candidates : List Text) (state : RouterState) :
    Option Text × RouterState :=
  let observed := observeCandidates probes candidates state
  match leastScore observed.1 with
  | none => (candidates.head?, observed.2)
  | some best => (some best.url, observed.2)

variable (unicode : UnicodeTables)

/-- The addresses that are not blank. -/
def normalizedCandidates (candidates : List Text) : List Text :=
  candidates.filter fun url => strip unicode url ≠ []

/-- One round of the loop over the stages. -/
def overrideStage (stage : Text × List Text) (overrides : Overrides) (state : RouterState) :
    Overrides × RouterState :=
  match normalizedCandidates unicode stage.2 with
  | [] => (overrides, state)
  | [url] => (overrides.putLast stage.1 url, state)
  | candidates =>
    let selected := selectBestCandidate probes candidates state
    match selected.1 with
    | none | some [] => (overrides, selected.2)
    | some url => (overrides.putLast stage.1 url, selected.2)

def overrideStages : List (Text × List Text) → Overrides → RouterState → Overrides × RouterState
  | [], overrides, state => (overrides, state)
  | stage :: rest, overrides, state =>
    let next := overrideStage probes unicode stage overrides state
    overrideStages rest next.1 next.2

def buildRouteOverrides (enabled : Bool) (routeCandidates : OrderedDict Text (List Text))
    (state : RouterState) : Overrides × RouterState :=
  if !enabled then (.empty, state)
  else overrideStages probes unicode routeCandidates.entries .empty state

/-- The decimal text of a stage id. -/
def stageKey (stageId : ℕ) : Text := (toString stageId).toList

/-- The override of a stage, under one of two keys. -/
def stageOverride (overrides : Overrides) (stageId : ℕ) : Option Text :=
  match overrides.get? (stageKey stageId) with
  | none | some [] => overrides.get? ("stage_".toList ++ stageKey stageId)
  | some url => some url

/-- `resolve_next_stage_url`, where an empty text counts as missing. -/
def resolveNextStageUrl (stageId : ℕ) (defaultNextStageUrl : Option Text)
    (topologyAwareRouting : Bool) (overrides : Overrides) : Option Text :=
  match defaultNextStageUrl with
  | none | some [] => none
  | some default =>
    if !topologyAwareRouting then some default
    else
      match stageOverride overrides stageId with
      | none => some default
      | some url => if strip unicode url = [] then some default else some (strip unicode url)

/-- The entries of a stage metric that the module reads. -/
structure RouteMetric where
  nextStageUrl : Option Text := none
  stage1Url : Option Text := none
  rpcWallTimeMs : Option ℚ := none
  transferTimeMs : Option ℚ := none
  estimatedLinkMbps : Option ℚ := none

/-- One round of the loop of `observe_stage_metrics`. -/
def observeStageMetric (state : RouterState) (metric : RouteMetric) : RouterState :=
  let url :=
    match metric.nextStageUrl with
    | none | some [] => metric.stage1Url
    | some url => some url
  match url with
  | none => state
  | some url =>
    if strip unicode url = [] then state
    else
      let transferTimeMs := metric.rpcWallTimeMs.getD (metric.transferTimeMs.getD 0)
      let estimatedLinkMbps := metric.estimatedLinkMbps.getD 0
      if transferTimeMs ≤ 0 ∧ estimatedLinkMbps ≤ 0 then state
      else
        recordObservation state
          ⟨strip unicode url, max 0 transferTimeMs, max 0 estimatedLinkMbps⟩

def observeStageMetrics (metrics : List RouteMetric) (state : RouterState) : RouterState :=
  metrics.foldl (observeStageMetric unicode) state

end Module

section Selection

theorem leastScore_mem {observations : List RouteObservation} {best : RouteObservation}
    (h : leastScore observations = some best) : best ∈ observations :=
  (List.mem_insertionSort _).mp (List.mem_of_head? h)

/-- The observation at the front after sorting has the least score. -/
theorem leastScore_le {observations : List RouteObservation} {best o : RouteObservation}
    (h : leastScore observations = some best) (ho : o ∈ observations) :
    routeScore best ≤ routeScore o := by
  have : Std.Total fun a b : RouteObservation => routeScore a ≤ routeScore b :=
    ⟨fun a b => le_total _ _⟩
  have : IsTrans RouteObservation fun a b => routeScore a ≤ routeScore b :=
    ⟨fun _ _ _ hab hbc => le_trans hab hbc⟩
  obtain ⟨rest, hsorted⟩ := List.head?_eq_some_iff.mp h
  have hpairwise :=
    List.pairwise_insertionSort (fun a b => routeScore a ≤ routeScore b) observations
  have hmem := (List.mem_insertionSort fun a b => routeScore a ≤ routeScore b).mpr ho
  rw [hsorted] at hpairwise hmem
  rcases List.mem_cons.mp hmem with rfl | hrest
  · exact le_rfl
  · exact (List.pairwise_cons.mp hpairwise).1 o hrest

theorem leastScore_none {observations : List RouteObservation}
    (h : leastScore observations = none) :
    observations = [] := by
  have hlength :=
    List.length_insertionSort (fun a b => routeScore a ≤ routeScore b) observations
  rw [List.head?_eq_none_iff.mp h] at hlength
  exact List.length_eq_zero_iff.mp hlength.symm

end Selection

section Observing

variable {probes : Probes}

/-- What a call that observes candidates leaves behind: every observation stays,
and more addresses may have been asked. -/
structure Extends (state state' : RouterState) : Prop where
  kept : ∀ url o, state.observations.get? url = some o → state'.observations.get? url = some o
  asked : state.healthRequests <+: state'.healthRequests

theorem Extends.refl (state : RouterState) : Extends state state :=
  ⟨fun _ _ h => h, List.prefix_rfl⟩

theorem Extends.trans {state state' state'' : RouterState} (h : Extends state state')
    (h' : Extends state' state'') : Extends state state'' :=
  ⟨fun url o hget => h'.kept url o (h.kept url o hget), h.asked.trans h'.asked⟩

/-- An address was asked between two states, in vain. -/
def AskedInVain (probes : Probes) (state state' : RouterState) (url : Text) : Prop :=
  ∃ n, state.healthRequests.length ≤ n ∧ state'.healthRequests[n]? = some url ∧
    probes n url = none

theorem AskedInVain.mono {first state state' last : RouterState} {url : Text}
    (h : AskedInVain probes state state' url) (hfirst : Extends first state)
    (hlast : Extends state' last) : AskedInVain probes first last url := by
  obtain ⟨n, hn, hurl, hfailed⟩ := h
  obtain ⟨more, hmore⟩ := hlast.asked
  have hlt := (List.getElem?_eq_some_iff.mp hurl).1
  refine ⟨n, hfirst.asked.length_le.trans hn, ?_, hfailed⟩
  rw [← hmore, List.getElem?_append_left hlt, hurl]

/-- Recording an observation of a new address extends the state. -/
theorem extends_recordObservation {state : RouterState} {observation : RouteObservation}
    (h : state.observations.get? observation.url = none) :
    Extends state (recordObservation state observation) := by
  refine ⟨fun url o hget => ?_, List.prefix_rfl⟩
  have hne : url ≠ observation.url := by
    rintro rfl
    rw [h] at hget
    cases hget
  exact (OrderedDict.get?_putLast_other _ _ hne).trans hget

/-- A candidate is observed afterwards exactly when the call returns its
observation; otherwise its health request failed. -/
theorem observationForCandidate_spec (probes : Probes) (url : Text) (state : RouterState) :
    Extends state (observationForCandidate probes url state).2 ∧
      (observationForCandidate probes url state).2.observations.get? url =
        (observationForCandidate probes url state).1 ∧
      ((observationForCandidate probes url state).1 = none →
        AskedInVain probes state (observationForCandidate probes url state).2 url) := by
  unfold observationForCandidate
  cases hget : state.observations.get? url with
  | some existing => exact ⟨.refl state, hget, fun h => by cases h⟩
  | none =>
    dsimp only
    unfold probeCandidate
    have hasked : Extends state { state with healthRequests := state.healthRequests ++ [url] } :=
      ⟨fun _ _ h => h, List.prefix_append _ _⟩
    cases hprobe : probes state.healthRequests.length url with
    | none =>
      refine ⟨hasked, hget, fun _ => ⟨state.healthRequests.length, le_rfl, ?_, hprobe⟩⟩
      exact List.getElem?_concat_length
    | some response =>
      refine ⟨hasked.trans (extends_recordObservation hget), ?_, fun h => by cases h⟩
      exact OrderedDict.get?_putLast_self _ _ _

/-- After a round over candidates the store knows what was returned, and every
candidate that it knows was returned; the others were asked in vain. -/
theorem observeCandidates_spec (probes : Probes) (candidates : List Text) (state : RouterState) :
    Extends state (observeCandidates probes candidates state).2 ∧
      (∀ o ∈ (observeCandidates probes candidates state).1, o.url ∈ candidates ∧
        (observeCandidates probes candidates state).2.observations.get? o.url = some o) ∧
      ∀ url ∈ candidates, (∃ o ∈ (observeCandidates probes candidates state).1, o.url = url) ∨
        AskedInVain probes state (observeCandidates probes candidates state).2 url := by
  induction candidates generalizing state with
  | nil =>
    exact ⟨.refl state, fun o ho => absurd ho List.not_mem_nil, fun url hurl =>
      absurd hurl List.not_mem_nil⟩
  | cons first rest ih =>
    obtain ⟨hextends, hfirst, hfailed⟩ := observationForCandidate_spec probes first state
    obtain ⟨hextends', hreturned, hcovered⟩ :=
      ih (observationForCandidate probes first state).2
    rw [observeCandidates]
    refine ⟨hextends.trans hextends', fun o ho => ?_, fun url hurl => ?_⟩
    · rcases List.mem_append.mp ho with ho | ho
      · have ho' : (observationForCandidate probes first state).1 = some o :=
          Option.mem_toList.mp ho
        have hknown := hfirst.trans ho'
        have hkey := (observationForCandidate probes first state).2.keyed first o hknown
        rw [hkey]
        exact ⟨List.mem_cons_self, hextends'.kept first o hknown⟩
      · obtain ⟨hmem, hknown⟩ := hreturned o ho
        exact ⟨List.mem_cons_of_mem _ hmem, hknown⟩
    · rcases List.mem_cons.mp hurl with rfl | hurl
      · cases hobserved : (observationForCandidate probes url state).1 with
        | none => exact Or.inr ((hfailed hobserved).mono (.refl state) hextends')
        | some o =>
          have hkey := (observationForCandidate probes url state).2.keyed url o
            (hfirst.trans hobserved)
          refine Or.inl ⟨o, List.mem_append_left _ ?_, hkey⟩
          exact Option.mem_toList.mpr rfl
      · rcases hcovered url hurl with ⟨o, ho, hkey⟩ | hvain
        · exact Or.inl ⟨o, List.mem_append_right _ ho, hkey⟩
        · exact Or.inr (hvain.mono hextends (.refl _))

/-- The candidate that a choice between several comes out with. -/
structure Chosen (probes : Probes) (state state' : RouterState) (candidates : List Text)
    (url : Text) : Prop where
  candidate : url ∈ candidates
  least : ∀ other ∈ candidates, AskedInVain probes state state' other ∨
    ∃ best o, state'.observations.get? url = some best ∧
      state'.observations.get? other = some o ∧ routeScore best ≤ routeScore o

theorem Chosen.mono {first state state' last : RouterState} {candidates : List Text} {url : Text}
    (h : Chosen probes state state' candidates url) (hfirst : Extends first state)
    (hlast : Extends state' last) : Chosen probes first last candidates url := by
  refine ⟨h.candidate, fun other hother => ?_⟩
  rcases h.least other hother with hvain | ⟨best, o, hbest, ho, hle⟩
  · exact Or.inl (hvain.mono hfirst hlast)
  · exact Or.inr ⟨best, o, hlast.kept url best hbest, hlast.kept other o ho, hle⟩

theorem selectBestCandidate_spec (probes : Probes) (candidates : List Text) (state : RouterState) :
    Extends state (selectBestCandidate probes candidates state).2 ∧
      ∀ url, (selectBestCandidate probes candidates state).1 = some url →
        Chosen probes state (selectBestCandidate probes candidates state).2 candidates url := by
  obtain ⟨hextends, hreturned, hcovered⟩ := observeCandidates_spec probes candidates state
  cases hleast : leastScore (observeCandidates probes candidates state).1 with
  | none =>
    have hselect : selectBestCandidate probes candidates state =
        (candidates.head?, (observeCandidates probes candidates state).2) := by
      simp only [selectBestCandidate, hleast]
    have hnone := leastScore_none hleast
    rw [hselect]
    refine ⟨hextends, fun url hurl => ⟨List.mem_of_head? hurl, fun other hother => ?_⟩⟩
    rcases hcovered other hother with ⟨o, ho, -⟩ | hvain
    · rw [hnone] at ho
      exact absurd ho List.not_mem_nil
    · exact Or.inl hvain
  | some best =>
    have hselect : selectBestCandidate probes candidates state =
        (some best.url, (observeCandidates probes candidates state).2) := by
      simp only [selectBestCandidate, hleast]
    obtain ⟨hmem, hknown⟩ := hreturned best (leastScore_mem hleast)
    rw [hselect]
    refine ⟨hextends, fun url hurl => ?_⟩
    cases hurl
    refine ⟨hmem, fun other hother => ?_⟩
    rcases hcovered other hother with ⟨o, ho, hkey⟩ | hvain
    · subst hkey
      exact Or.inr ⟨best, o, hknown, (hreturned o ho).2, leastScore_le hleast ho⟩
    · exact Or.inl hvain

theorem selectBestCandidate_isSome (probes : Probes) {candidates : List Text} (h : candidates ≠ [])
    (state : RouterState) : ∃ url, (selectBestCandidate probes candidates state).1 = some url := by
  unfold selectBestCandidate
  dsimp only
  split
  · exact ⟨candidates.head h, List.head?_eq_some_head h⟩
  · exact ⟨_, rfl⟩

end Observing

section Building

variable {probes : Probes} {unicode : UnicodeTables}

theorem mem_normalizedCandidates {candidates : List Text} {url : Text} :
    url ∈ normalizedCandidates unicode candidates ↔ url ∈ candidates ∧ strip unicode url ≠ [] := by
  rw [normalizedCandidates, List.mem_filter, decide_eq_true_eq]

theorem strip_nil (unicode : UnicodeTables) : strip unicode [] = [] := rfl

/-- What a call decides for one stage: nothing without a usable candidate, the
only one, or a choice between several. -/
def Decided (probes : Probes) (unicode : UnicodeTables) (state state' : RouterState)
    (candidates : List Text) (decision : Option Text) : Prop :=
  match normalizedCandidates unicode candidates with
  | [] => decision = none
  | [only] => decision = some only
  | several => ∃ url, decision = some url ∧ Chosen probes state state' several url

theorem Decided.mono {first state state' last : RouterState} {candidates : List Text}
    {decision : Option Text} (h : Decided probes unicode state state' candidates decision)
    (hfirst : Extends first state) (hlast : Extends state' last) :
    Decided probes unicode first last candidates decision := by
  unfold Decided at h ⊢
  split at h
  · exact h
  · exact h
  · obtain ⟨url, hurl, hchosen⟩ := h
    exact ⟨url, hurl, hchosen.mono hfirst hlast⟩

/-- One round of the loop decides its own stage and touches no other one. -/
theorem overrideStage_spec (probes : Probes) (unicode : UnicodeTables) (stage : Text × List Text)
    {overrides : Overrides} (state : RouterState) (hnew : overrides.get? stage.1 = none) :
    Extends state (overrideStage probes unicode stage overrides state).2 ∧
      Decided probes unicode state (overrideStage probes unicode stage overrides state).2 stage.2
        ((overrideStage probes unicode stage overrides state).1.get? stage.1) ∧
      ∀ key ≠ stage.1,
        (overrideStage probes unicode stage overrides state).1.get? key = overrides.get? key := by
  unfold overrideStage Decided
  cases hcandidates : normalizedCandidates unicode stage.2 with
  | nil => exact ⟨.refl state, hnew, fun _ _ => rfl⟩
  | cons first rest =>
    cases rest with
    | nil =>
      exact ⟨.refl state, OrderedDict.get?_putLast_self _ _ _, fun key hkey =>
        OrderedDict.get?_putLast_other _ _ hkey⟩
    | cons second rest =>
      dsimp only
      have hseveral : first :: second :: rest ≠ [] := List.cons_ne_nil _ _
      obtain ⟨hextends, hchosen⟩ :=
        selectBestCandidate_spec probes (first :: second :: rest) state
      obtain ⟨url, hurl⟩ := selectBestCandidate_isSome probes hseveral state
      have hmem := (hchosen url hurl).candidate
      rw [← hcandidates, mem_normalizedCandidates] at hmem
      have hnonempty : url ≠ [] := by
        rintro rfl
        exact hmem.2 (strip_nil unicode)
      obtain ⟨c, cs, rfl⟩ := List.exists_cons_of_ne_nil hnonempty
      simp only [hurl]
      exact ⟨hextends, ⟨c :: cs, OrderedDict.get?_putLast_self _ _ _, hchosen _ hurl⟩,
        fun key hkey => OrderedDict.get?_putLast_other _ _ hkey⟩

/-- The loop decides every stage, each by its own candidates. -/
theorem overrideStages_spec (probes : Probes) (unicode : UnicodeTables)
    {stages : List (Text × List Text)}
    (hdistinct : (stages.map Prod.fst).Nodup) {overrides : Overrides} (state : RouterState)
    (hnew : ∀ stage ∈ stages, overrides.get? stage.1 = none) :
    Extends state (overrideStages probes unicode stages overrides state).2 ∧
      (∀ stage ∈ stages, Decided probes unicode state
        (overrideStages probes unicode stages overrides state).2 stage.2
        ((overrideStages probes unicode stages overrides state).1.get? stage.1)) ∧
      ∀ key ∉ stages.map Prod.fst,
        (overrideStages probes unicode stages overrides state).1.get? key =
          overrides.get? key := by
  induction stages generalizing overrides state with
  | nil => exact ⟨.refl state, fun stage h => absurd h List.not_mem_nil, fun _ _ => rfl⟩
  | cons first rest ih =>
    rw [List.map_cons, List.nodup_cons] at hdistinct
    obtain ⟨hextends, hdecided, hother⟩ :=
      overrideStage_spec probes unicode first state (hnew first List.mem_cons_self)
    have hnew' : ∀ stage ∈ rest,
        (overrideStage probes unicode first overrides state).1.get? stage.1 = none := by
      intro stage hstage
      have hne : stage.1 ≠ first.1 := by
        intro heq
        exact hdistinct.1 (heq ▸ List.mem_map_of_mem hstage)
      rw [hother stage.1 hne]
      exact hnew stage (List.mem_cons_of_mem _ hstage)
    obtain ⟨hextends', hdecided', hother'⟩ := ih hdistinct.2
      (overrideStage probes unicode first overrides state).2 hnew'
    rw [overrideStages]
    refine ⟨hextends.trans hextends', fun stage hstage => ?_, fun key hkey => ?_⟩
    · rcases List.mem_cons.mp hstage with rfl | hstage
      · rw [hother' stage.1 hdistinct.1]
        exact hdecided.mono (.refl state) hextends'
      · exact (hdecided' stage hstage).mono hextends (.refl _)
    · rw [List.map_cons, List.mem_cons, not_or] at hkey
      rw [hother' key hkey.2, hother key hkey.1]

theorem buildRouteOverrides_spec (probes : Probes) (unicode : UnicodeTables)
    (routeCandidates : OrderedDict Text (List Text)) (state : RouterState) :
    Extends state (buildRouteOverrides probes unicode true routeCandidates state).2 ∧
      (∀ stage ∈ routeCandidates.entries, Decided probes unicode state
        (buildRouteOverrides probes unicode true routeCandidates state).2 stage.2
        ((buildRouteOverrides probes unicode true routeCandidates state).1.get? stage.1)) ∧
      ∀ key ∉ routeCandidates.entries.map Prod.fst,
        (buildRouteOverrides probes unicode true routeCandidates state).1.get? key = none :=
  overrideStages_spec probes unicode routeCandidates.distinct state fun _ _ =>
    OrderedDict.get?_empty _

end Building

section Runs

variable {probes : Probes} {unicode : UnicodeTables}

inductive RouterEvent where
  | build (enabled : Bool) (routeCandidates : OrderedDict Text (List Text))
  | observe (metrics : List RouteMetric)

/-- One call of the module by the gateway. -/
def applyEvent (probes : Probes) (unicode : UnicodeTables) (state : RouterState) :
    RouterEvent → RouterState
  | .build enabled routeCandidates =>
    (buildRouteOverrides probes unicode enabled routeCandidates state).2
  | .observe metrics => observeStageMetrics unicode metrics state

/-- An address whose health request succeeded has an observation and was not
asked again. -/
def Sparing (probes : Probes) (state : RouterState) : Prop :=
  ∀ n url response, state.healthRequests[n]? = some url → probes n url = some response →
    (∃ o, state.observations.get? url = some o) ∧ url ∉ state.healthRequests.drop (n + 1)

theorem sparing_initial (probes : Probes) : Sparing probes .initial := by
  intro n url response hurl
  cases hurl

/-- Recording an observation asks nobody and forgets nobody. -/
theorem sparing_recordObservation {state : RouterState} (h : Sparing probes state)
    (observation : RouteObservation) : Sparing probes (recordObservation state observation) := by
  intro n url response hurl hprobe
  obtain ⟨⟨o, ho⟩, hlater⟩ := h n url response hurl hprobe
  refine ⟨?_, hlater⟩
  by_cases heq : url = observation.url
  · exact ⟨observation, heq ▸ OrderedDict.get?_putLast_self _ _ _⟩
  · exact ⟨o, (OrderedDict.get?_putLast_other _ _ heq).trans ho⟩

theorem sparing_observationForCandidate {state : RouterState} (h : Sparing probes state)
    (url : Text) : Sparing probes (observationForCandidate probes url state).2 := by
  unfold observationForCandidate
  cases hget : state.observations.get? url with
  | some existing => exact h
  | none =>
    dsimp only
    -- The new request is the last one, and every answered address is another one.
    have hnew : ∀ (observations : OrderedDict Text RouteObservation),
        (∀ other ≠ url, observations.get? other = state.observations.get? other) →
        (∀ response, probes state.healthRequests.length url = some response →
          ∃ o, observations.get? url = some o) →
        ∀ n other response, (state.healthRequests ++ [url])[n]? = some other →
          probes n other = some response →
          (∃ o, observations.get? other = some o) ∧
            other ∉ (state.healthRequests ++ [url]).drop (n + 1) := by
      intro observations hothers hself n other response hother hprobe
      rcases Nat.lt_trichotomy n state.healthRequests.length with hlt | heq | hgt
      · rw [List.getElem?_append_left hlt] at hother
        obtain ⟨⟨o, ho⟩, hlater⟩ := h n other response hother hprobe
        have hne : other ≠ url := by
          rintro rfl
          rw [hget] at ho
          cases ho
        refine ⟨⟨o, (hothers other hne).trans ho⟩, ?_⟩
        rw [List.drop_append_of_le_length hlt, List.mem_append, List.mem_singleton, not_or]
        exact ⟨hlater, hne⟩
      · subst heq
        rw [List.getElem?_concat_length] at hother
        cases hother
        refine ⟨hself response hprobe, ?_⟩
        rw [List.drop_of_length_le (by simp)]
        exact List.not_mem_nil
      · have hnone : (state.healthRequests ++ [url])[n]? = none :=
          by
          rw [List.getElem?_eq_none_iff, List.length_append, List.length_singleton]
          exact hgt
        rw [hnone] at hother
        cases hother
    unfold probeCandidate
    cases hprobe : probes state.healthRequests.length url with
    | none =>
      refine hnew state.observations (fun _ _ => rfl) fun response hresponse => ?_
      rw [hprobe] at hresponse
      cases hresponse
    | some response =>
      exact hnew _ (fun other hne => OrderedDict.get?_putLast_other _ _ hne) fun _ _ =>
        ⟨_, OrderedDict.get?_putLast_self _ _ _⟩

theorem sparing_observeCandidates {state : RouterState} (h : Sparing probes state)
    (candidates : List Text) : Sparing probes (observeCandidates probes candidates state).2 := by
  induction candidates generalizing state with
  | nil => exact h
  | cons url rest ih => exact ih (sparing_observationForCandidate h url)

theorem sparing_selectBestCandidate {state : RouterState} (h : Sparing probes state)
    (candidates : List Text) : Sparing probes (selectBestCandidate probes candidates state).2 := by
  unfold selectBestCandidate
  dsimp only
  split <;> exact sparing_observeCandidates h candidates

theorem sparing_overrideStages {state : RouterState} (h : Sparing probes state)
    (stages : List (Text × List Text)) (overrides : Overrides) :
    Sparing probes (overrideStages probes unicode stages overrides state).2 := by
  induction stages generalizing state overrides with
  | nil => exact h
  | cons stage rest ih =>
    refine ih ?_ _
    unfold overrideStage
    split
    · exact h
    · exact h
    · dsimp only
      split <;> exact sparing_selectBestCandidate h _

theorem sparing_observeStageMetrics {state : RouterState} (h : Sparing probes state)
    (metrics : List RouteMetric) : Sparing probes (observeStageMetrics unicode metrics state) := by
  unfold observeStageMetrics
  induction metrics generalizing state with
  | nil => exact h
  | cons metric rest ih =>
    rw [List.foldl_cons]
    refine ih ?_
    unfold observeStageMetric
    dsimp only
    split
    · exact h
    · split
      · exact h
      · split
        · exact h
        · exact sparing_recordObservation h _

theorem sparing_applyEvent {state : RouterState} (h : Sparing probes state) (event : RouterEvent) :
    Sparing probes (applyEvent probes unicode state event) := by
  cases event with
  | build enabled routeCandidates =>
    unfold applyEvent buildRouteOverrides
    cases enabled with
    | false => exact h
    | true => exact sparing_overrideStages h _ _
  | observe metrics => exact sparing_observeStageMetrics h metrics

/-- The state after some calls. -/
def reached (probes : Probes) (unicode : UnicodeTables) (events : List RouterEvent) : RouterState :=
  events.foldl (applyEvent probes unicode) .initial

theorem reached_append (probes : Probes) (unicode : UnicodeTables) (events : List RouterEvent)
    (event : RouterEvent) :
    reached probes unicode (events ++ [event]) =
      applyEvent probes unicode (reached probes unicode events) event := by
  rw [reached, List.foldl_append]
  rfl

theorem sparing_reached (probes : Probes) (unicode : UnicodeTables) (events : List RouterEvent) :
    Sparing probes (reached probes unicode events) := by
  induction events using List.reverseRecOn with
  | nil => exact sparing_initial probes
  | append_singleton events event ih =>
    rw [reached_append]
    exact sparing_applyEvent ih event

/-- After any calls of the module in any order, no address was asked for its
health again once it had answered. The next overrides then take, for every stage
with several usable addresses, one of them that no other one beats, unless that
one was asked in vain just now. -/
theorem routes_chosen (probes : Probes) (unicode : UnicodeTables) (events : List RouterEvent)
    (routeCandidates : OrderedDict Text (List Text)) :
    let state := reached probes unicode events
    let built := buildRouteOverrides probes unicode true routeCandidates state
    (∀ m n url, m < n → built.2.healthRequests[m]? = some url →
      built.2.healthRequests[n]? = some url → probes m url = none) ∧
      (∀ stage ∈ routeCandidates.entries,
        Decided probes unicode state built.2 stage.2 (built.1.get? stage.1)) ∧
      ∀ key ∉ routeCandidates.entries.map Prod.fst, built.1.get? key = none := by
  intro state built
  obtain ⟨-, hdecided, hother⟩ := buildRouteOverrides_spec probes unicode routeCandidates state
  have hsparing : Sparing probes built.2 := by
    have hreached := sparing_reached probes unicode (events ++ [.build true routeCandidates])
    rw [reached_append] at hreached
    exact hreached
  refine ⟨fun m n url hlt hm hn => ?_, hdecided, hother⟩
  cases hprobe : probes m url with
  | none => rfl
  | some response =>
    obtain ⟨-, hlater⟩ := hsparing m url response hm hprobe
    refine absurd (List.mem_of_getElem? (i := n - (m + 1)) ?_) hlater
    rw [List.getElem?_drop, Nat.add_sub_cancel' hlt]
    exact hn

end Runs

end LayerInference.TopologyRouting
