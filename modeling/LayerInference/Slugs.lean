import LayerInference.TextStreams

/-!
# The slugs of the controller and of the ops server

Both name a model directory by a slug of the model id. The controller walks over
the bytes with a flag for the last dash, the ops server replaces runs by regular
expressions. Letters and digits are kept by both, so only the text between the
first and the last of them matters. There the two agree exactly when no dash of
the text itself stands behind another dash or behind a replaced byte: the
controller pushes such a dash without a look at its flag. Texts are ASCII, where
a code unit is a byte.
-/

namespace LayerInference.Slugs

open ByteStrings TextStreams

section Functions

/-- The bytes that a slug may have, after the change to lower case. -/
def isSlugByte (b : UInt8) : Bool :=
  (97 ≤ b && b ≤ 122) || (48 ≤ b && b ≤ 57) || b == 46 || b == 95 || b == 45

/-- A dash, a dot or an underscore is not kept at an end. -/
def isEdge (b : UInt8) : Bool := b == 45 || b == 46 || b == 95

/-- The loop of the controller over the bytes. -/
def slugLoop : Bool → Bytes → Bytes
  | _, [] => []
  | lastDash, ch :: rest =>
    let lower := lowerByte ch
    if isSlugByte lower then lower :: slugLoop (lower == 45) rest
    else if !lastDash then 45 :: slugLoop true rest
    else slugLoop lastDash rest

def stripEdges (text : Bytes) : Bytes := (text.dropWhile isEdge).rdropWhile isEdge

/-- The name for a text of which nothing is left. -/
def orModel (text : Bytes) : Bytes := if text = [] then ascii "model" else text

/-- The slug of the controller. -/
def slugify (value : Bytes) : Bytes := orModel (stripEdges (slugLoop false value))

/-- Replace every run by one dash; the flag says that a run goes on. -/
def replaceRuns (inRun : UInt8 → Bool) : Bool → Bytes → Bytes
  | _, [] => []
  | running, b :: rest =>
    if inRun b then
      if running then replaceRuns inRun true rest else 45 :: replaceRuns inRun true rest
    else b :: replaceRuns inRun false rest

/-- The slug of the ops server. -/
def slugifyModelId (value : Bytes) : Bytes :=
  orModel (stripEdges (replaceRuns (· == 45) false
    (replaceRuns (!isSlugByte ·) false (lowerCopy (trimCopy value)))))

end Functions

section Cores

/-- Letters and digits, in either case. -/
def isAlnum (b : UInt8) : Bool :=
  (97 ≤ lowerByte b && lowerByte b ≤ 122) || (48 ≤ b && b ≤ 57)

/-- A dash, or a byte that becomes one. -/
def separates (b : UInt8) : Bool := b == 45 || !isSlugByte (lowerByte b)

/-- What is known about one byte, over all bytes. -/
theorem byte_facts (b : UInt8) :
    (isAlnum b = true → isSlugByte (lowerByte b) = true ∧ isEdge (lowerByte b) = false ∧
      separates b = false ∧ isSpace b = false ∧ (lowerByte b == 45) = false) ∧
      (isAlnum b = false → isSlugByte (lowerByte b) = true → isEdge (lowerByte b) = true) ∧
      (isSlugByte (lowerByte b) = true → lowerByte (lowerByte b) = lowerByte b) ∧
      (lowerByte b == 45) = (b == 45) := by
  have hall : ∀ n < 256,
      ((isAlnum (UInt8.ofNat n) = true → isSlugByte (lowerByte (UInt8.ofNat n)) = true ∧
          isEdge (lowerByte (UInt8.ofNat n)) = false ∧ separates (UInt8.ofNat n) = false ∧
          isSpace (UInt8.ofNat n) = false ∧ (lowerByte (UInt8.ofNat n) == 45) = false) ∧
        (isAlnum (UInt8.ofNat n) = false → isSlugByte (lowerByte (UInt8.ofNat n)) = true →
          isEdge (lowerByte (UInt8.ofNat n)) = true) ∧
        (isSlugByte (lowerByte (UInt8.ofNat n)) = true →
          lowerByte (lowerByte (UInt8.ofNat n)) = lowerByte (UInt8.ofNat n)) ∧
        (lowerByte (UInt8.ofNat n) == 45) = (UInt8.ofNat n == 45)) := by decide +kernel
  have hb := hall b.toNat b.toNat_lt
  rwa [UInt8.ofNat_toNat] at hb

/-- The part of a text from its first to its last letter or digit. -/
structure Core (core : Bytes) : Prop where
  first : ∃ c rest, core = c :: rest ∧ isAlnum c = true
  last : ∃ init c, core = init ++ [c] ∧ isAlnum c = true

/-- A text without letters and digits. -/
def Bare (text : Bytes) : Prop := ∀ b ∈ text, isAlnum b = false

/-- The first letter or digit. -/
theorem first_alnum {text : Bytes} (h : ¬Bare text) :
    ∃ front c rest, text = front ++ c :: rest ∧ Bare front ∧ isAlnum c = true := by
  induction text with
  | nil => exact absurd (fun b hb => absurd hb List.not_mem_nil) h
  | cons b text ih =>
    cases hb : isAlnum b with
    | true => exact ⟨[], b, text, rfl, fun c hc => absurd hc List.not_mem_nil, hb⟩
    | false =>
      have hrest : ¬Bare text := by
        intro hbare
        refine h fun c hc => ?_
        rcases List.mem_cons.mp hc with rfl | hc
        · exact hb
        · exact hbare c hc
      obtain ⟨front, c, rest, rfl, hfront, hc⟩ := ih hrest
      refine ⟨b :: front, c, rest, rfl, fun d hd => ?_, hc⟩
      rcases List.mem_cons.mp hd with rfl | hd
      · exact hb
      · exact hfront d hd

/-- The last letter or digit. -/
theorem last_alnum {text : Bytes} (h : ¬Bare text) :
    ∃ init c back, text = init ++ c :: back ∧ Bare back ∧ isAlnum c = true := by
  have hreverse : ¬Bare text.reverse := fun hbare =>
    h fun b hb => hbare b (List.mem_reverse.mpr hb)
  obtain ⟨front, c, rest, heq, hfront, hc⟩ := first_alnum hreverse
  refine ⟨rest.reverse, c, front.reverse, ?_, fun b hb => hfront b (List.mem_reverse.mp hb), hc⟩
  rw [← List.reverse_reverse text, heq, List.reverse_append, List.reverse_cons,
    List.append_assoc]
  rfl

/-- A text is bare, or a core between two bare texts. -/
theorem core_cases (value : Bytes) : Bare value ∨ ∃ front core back,
    value = front ++ (core ++ back) ∧ Bare front ∧ Core core ∧ Bare back := by
  by_cases hbare : Bare value
  · exact Or.inl hbare
  obtain ⟨front, c, rest, hvalue, hfront, hc⟩ := first_alnum hbare
  have hnot : ¬Bare (c :: rest) := fun h => by
    rw [h c List.mem_cons_self] at hc
    cases hc
  obtain ⟨init, d, back, hrest, hback, hd⟩ := last_alnum hnot
  refine Or.inr ⟨front, init ++ [d], back, ?_, hfront, ⟨?_, ⟨init, d, rfl, hd⟩⟩, hback⟩
  · rw [hvalue, hrest, List.append_assoc]
    rfl
  · cases init with
    | nil => exact ⟨d, [], rfl, hd⟩
    | cons b init =>
      obtain ⟨rfl, -⟩ := List.cons.inj hrest
      exact ⟨c, init ++ [d], rfl, hc⟩

/-- Trimming leaves a text that starts and ends with a byte that is kept. -/
theorem trim_kept {p : UInt8 → Bool} {front back text : Bytes} (hfront : ∀ b ∈ front, p b = true)
    (hback : ∀ b ∈ back, p b = true) (hfirst : ∃ c rest, text = c :: rest ∧ p c = false)
    (hlast : ∃ init c, text = init ++ [c] ∧ p c = false) :
    ((front ++ (text ++ back)).dropWhile p).rdropWhile p = text := by
  obtain ⟨c, rest, hcons, hc⟩ := hfirst
  obtain ⟨init, d, hsnoc, hd⟩ := hlast
  have hdrop : (front ++ (text ++ back)).dropWhile p = text ++ back := by
    rw [List.dropWhile_append_of_pos hfront, hcons, List.cons_append,
      List.dropWhile_cons_of_neg (by rw [hc]; exact Bool.false_ne_true)]
  have hreverse : ∀ b ∈ back.reverse, p b = true := fun b hb => hback b (List.mem_reverse.mp hb)
  rw [hdrop, List.rdropWhile, List.reverse_append, List.dropWhile_append_of_pos hreverse, hsnoc,
    List.reverse_append, List.reverse_singleton, List.singleton_append,
    List.dropWhile_cons_of_neg (by rw [hd]; exact Bool.false_ne_true), List.reverse_cons,
    List.reverse_reverse]

/-- A rewriting with a flag that keeps letters and digits in lower case, and
makes edges of everything else. -/
structure KeepsAlnum (f : Bool → Bytes → Bytes) : Prop where
  nil : ∀ i, f i [] = []
  kept : ∀ i b rest, isAlnum b = true → f i (b :: rest) = lowerByte b :: f false rest
  edges : ∀ i b, isAlnum b = false →
    ∃ front j, (∀ e ∈ front, isEdge e = true) ∧ ∀ rest, f i (b :: rest) = front ++ f j rest

section Rewriting

variable {f : Bool → Bytes → Bytes}

/-- Bare text becomes edges. -/
theorem KeepsAlnum.bare (hf : KeepsAlnum f) {bare : Bytes} (hbare : Bare bare) (i : Bool) :
    ∃ front j, (∀ e ∈ front, isEdge e = true) ∧ ∀ rest, f i (bare ++ rest) = front ++ f j rest := by
  induction bare generalizing i with
  | nil => exact ⟨[], i, fun e he => absurd he List.not_mem_nil, fun rest => rfl⟩
  | cons b bare ih =>
    obtain ⟨front, j, hfront, heq⟩ := hf.edges i b (hbare b List.mem_cons_self)
    obtain ⟨front', k, hfront', heq'⟩ := ih (fun c hc => hbare c (List.mem_cons_of_mem b hc)) j
    refine ⟨front ++ front', k, fun e he => ?_, fun rest => ?_⟩
    · rcases List.mem_append.mp he with he | he
      · exact hfront e he
      · exact hfront' e he
    · rw [List.cons_append, heq, heq', List.append_assoc]

/-- Bare text at the end becomes edges at the end. -/
theorem KeepsAlnum.behind (hf : KeepsAlnum f) {bare : Bytes} (hbare : Bare bare) (text : Bytes)
    (i : Bool) : ∃ back, (∀ e ∈ back, isEdge e = true) ∧ f i (text ++ bare) = f i text ++ back := by
  induction text generalizing i with
  | nil =>
    obtain ⟨front, j, hfront, heq⟩ := hf.bare hbare i
    have hall := heq []
    rw [hf.nil, List.append_nil, List.append_nil] at hall
    exact ⟨front, hfront, by rw [hf.nil, List.nil_append, List.nil_append, hall]⟩
  | cons b text ih =>
    cases hb : isAlnum b with
    | true =>
      obtain ⟨back, hback, heq⟩ := ih false
      exact ⟨back, hback, by rw [List.cons_append, hf.kept i b _ hb, hf.kept i b _ hb, heq]; rfl⟩
    | false =>
      obtain ⟨front, j, -, hstep⟩ := hf.edges i b hb
      obtain ⟨back, hback, heq⟩ := ih j
      exact ⟨back, hback, by rw [List.cons_append, hstep, hstep, heq, List.append_assoc]⟩

/-- A letter or digit at the end stays there. -/
theorem KeepsAlnum.ends (hf : KeepsAlnum f) {d : UInt8} (hd : isAlnum d = true) (init : Bytes)
    (i : Bool) : ∃ out, f i (init ++ [d]) = out ++ [lowerByte d] := by
  induction init generalizing i with
  | nil => exact ⟨[], by rw [List.nil_append, hf.kept i d _ hd, hf.nil]; rfl⟩
  | cons b init ih =>
    cases hb : isAlnum b with
    | true =>
      obtain ⟨out, heq⟩ := ih false
      exact ⟨lowerByte b :: out, by rw [List.cons_append, hf.kept i b _ hb, heq]; rfl⟩
    | false =>
      obtain ⟨front, j, -, hstep⟩ := hf.edges i b hb
      obtain ⟨out, heq⟩ := ih j
      exact ⟨front ++ out, by rw [List.cons_append, hstep, heq, List.append_assoc]⟩

/-- Without its edges, the rewritten text is the rewritten core. -/
theorem KeepsAlnum.strip (hf : KeepsAlnum f) {front core back : Bytes} (hfront : Bare front)
    (hcore : Core core) (hback : Bare back) (i : Bool) :
    stripEdges (f i (front ++ (core ++ back))) = f false core := by
  obtain ⟨edges, j, hedges, hstep⟩ := hf.bare hfront i
  obtain ⟨edges', hedges', hstep'⟩ := hf.behind hback core j
  obtain ⟨c, rest, hcons, hc⟩ := hcore.first
  obtain ⟨init, d, hsnoc, hd⟩ := hcore.last
  have hflag : f j core = f false core := by rw [hcons, hf.kept j c _ hc, hf.kept false c _ hc]
  obtain ⟨out, hout⟩ := hf.ends hd init false
  rw [hstep, hstep', hflag]
  refine trim_kept hedges hedges' ⟨lowerByte c, f false rest, ?_, ((byte_facts c).1 hc).2.1⟩
    ⟨out, lowerByte d, ?_, ((byte_facts d).1 hd).2.1⟩
  · rw [hcons, hf.kept false c _ hc]
  · rw [hsnoc, hout]

/-- A bare text leaves nothing. -/
theorem KeepsAlnum.strip_bare (hf : KeepsAlnum f) {bare : Bytes} (hbare : Bare bare) (i : Bool) :
    stripEdges (f i bare) = [] := by
  obtain ⟨front, j, hfront, heq⟩ := hf.bare hbare i
  have hall := heq []
  rw [hf.nil, List.append_nil, List.append_nil] at hall
  have hdrop : front.dropWhile isEdge = [] := List.dropWhile_eq_nil_iff.mpr hfront
  rw [hall, stripEdges, hdrop, List.rdropWhile_nil]

end Rewriting

/-- Edges are what bare text leaves of the loop of the controller. -/
theorem slugLoop_keeps : KeepsAlnum slugLoop where
  nil i := by cases i <;> rfl
  kept i b rest hb := by
    have hfacts := (byte_facts b).1 hb
    rw [slugLoop]
    simp only [hfacts.1, hfacts.2.2.2.2, if_true]
  edges i b hb := by
    cases hslug : isSlugByte (lowerByte b) with
    | true =>
      refine ⟨[lowerByte b], lowerByte b == 45, fun e he => ?_, fun rest => ?_⟩
      · rw [List.mem_singleton.mp he]
        exact (byte_facts b).2.1 hb hslug
      · rw [slugLoop]
        simp only [hslug, if_true]
        rfl
    | false =>
      cases i with
      | true =>
        refine ⟨[], true, fun e he => absurd he List.not_mem_nil, fun rest => ?_⟩
        rw [slugLoop]
        simp only [hslug, Bool.false_eq_true, if_false, Bool.not_true]
        rfl
      | false =>
        refine ⟨[45], true, fun e he => ?_, fun rest => ?_⟩
        · rw [List.mem_singleton.mp he]
          rfl
        · rw [slugLoop]
          simp only [hslug, Bool.false_eq_true, if_false, Bool.not_false, if_true]
          rfl

/-- Both replacements of the ops server in one: every run of separators becomes
one dash. -/
def collapse (running : Bool) (value : Bytes) : Bytes :=
  replaceRuns (fun b => b == 45 || !isSlugByte b) running (lowerCopy value)

theorem collapse_nil (running : Bool) : collapse running [] = [] := by cases running <;> rfl

theorem collapse_cons (running : Bool) (b : UInt8) (rest : Bytes) :
    collapse running (b :: rest) =
      if separates b then if running then collapse true rest else 45 :: collapse true rest
      else lowerByte b :: collapse false rest := by
  have hdash := (byte_facts b).2.2.2
  unfold collapse lowerCopy separates
  rw [List.map_cons, replaceRuns, hdash]

theorem collapse_keeps : KeepsAlnum collapse where
  nil := collapse_nil
  kept i b rest hb := by
    have hfacts := (byte_facts b).1 hb
    rw [collapse_cons, hfacts.2.2.1, if_neg Bool.false_ne_true]
  edges i b hb := by
    cases hseparates : separates b with
    | true =>
      cases i with
      | true =>
        refine ⟨[], true, fun e he => absurd he List.not_mem_nil, fun rest => ?_⟩
        rw [collapse_cons, if_pos hseparates, if_pos rfl]
        rfl
      | false =>
        refine ⟨[45], true, fun e he => ?_, fun rest => ?_⟩
        · rw [List.mem_singleton.mp he]
          rfl
        · rw [collapse_cons, if_pos hseparates, if_neg Bool.false_ne_true]
          rfl
    | false =>
      have hslug : isSlugByte (lowerByte b) = true := by
        unfold separates at hseparates
        rw [Bool.or_eq_false_iff, Bool.not_eq_false'] at hseparates
        exact hseparates.2
      refine ⟨[lowerByte b], false, fun e he => ?_, fun rest => ?_⟩
      · rw [List.mem_singleton.mp he]
        exact (byte_facts b).2.1 hb hslug
      · rw [collapse_cons, hseparates, if_neg Bool.false_ne_true]
        rfl

/-- A run of replaced bytes and a run of dashes collapse into one. -/
theorem replaceRuns_twice (outer inner : Bool) (h : inner = true → outer = true) (text : Bytes) :
    replaceRuns (· == 45) outer (replaceRuns (!isSlugByte ·) inner text) =
      replaceRuns (fun b => b == 45 || !isSlugByte b) outer text := by
  induction text generalizing outer inner with
  | nil => cases outer <;> cases inner <;> rfl
  | cons b text ih =>
    have hboth := ih true true fun _ => rfl
    have hdashes := ih true false fun hfalse => absurd hfalse Bool.false_ne_true
    have hkept := ih false false fun hfalse => absurd hfalse Bool.false_ne_true
    cases hslug : isSlugByte b with
    | true =>
      have hinner : replaceRuns (!isSlugByte ·) inner (b :: text) =
          b :: replaceRuns (!isSlugByte ·) false text := by
        rw [replaceRuns, hslug]
        rfl
      rw [hinner, replaceRuns, replaceRuns, hdashes, hkept, hslug]
      cases b == 45 <;> rfl
    | false =>
      have hrun : (b == 45 || !isSlugByte b) = true := by rw [hslug, Bool.not_false, Bool.or_true]
      rw [replaceRuns.eq_def _ outer (b :: text)]
      simp only [hrun, if_true]
      cases inner with
      | true =>
        have houter := h rfl
        have hinner : replaceRuns (!isSlugByte ·) true (b :: text) =
            replaceRuns (!isSlugByte ·) true text := by
          rw [replaceRuns, hslug]
          rfl
        rw [hinner, houter, hboth, if_pos rfl]
      | false =>
        have hinner : replaceRuns (!isSlugByte ·) false (b :: text) =
            45 :: replaceRuns (!isSlugByte ·) true text := by
          rw [replaceRuns, hslug]
          rfl
        rw [hinner, replaceRuns, hboth]
        rfl

theorem Bare.append {front back : Bytes} (hfront : Bare front) (hback : Bare back) :
    Bare (front ++ back) := fun b hb =>
  (List.mem_append.mp hb).elim (hfront b) (hback b)

theorem bare_of_space {text : Bytes} (h : ∀ b ∈ text, isSpace b = true) : Bare text := by
  intro b hb
  by_contra halnum
  rw [Bool.not_eq_false] at halnum
  have hspace := ((byte_facts b).1 halnum).2.2.2.1
  rw [h b hb] at hspace
  cases hspace

/-- A core is not empty after a rewriting. -/
theorem KeepsAlnum.orModel_core {f : Bool → Bytes → Bytes} (hf : KeepsAlnum f) {core : Bytes}
    (hcore : Core core) : orModel (f false core) = f false core := by
  obtain ⟨c, rest, rfl, hc⟩ := hcore.first
  rw [hf.kept false c rest hc]
  rfl

/-- Both slugs depend on the core only. -/
theorem slugs_cases (value : Bytes) :
    (Bare value ∧ slugify value = ascii "model" ∧ slugifyModelId value = ascii "model") ∨
      ∃ front core back, value = front ++ (core ++ back) ∧ Bare front ∧ Core core ∧ Bare back ∧
        slugify value = slugLoop false core ∧ slugifyModelId value = collapse false core := by
  obtain ⟨space, space', hvalue, hspace, hspace'⟩ := trimCopy_split value
  have hids : slugifyModelId value = orModel (stripEdges (collapse false (trimCopy value))) := by
    rw [slugifyModelId, replaceRuns_twice false false id]
    rfl
  rcases core_cases (trimCopy value) with hbare | ⟨front, core, back, htrim, hfront, hcore, hback⟩
  · have hall : Bare value := by
      rw [hvalue]
      exact (bare_of_space hspace).append (hbare.append (bare_of_space hspace'))
    refine Or.inl ⟨hall, ?_, ?_⟩
    · rw [slugify, slugLoop_keeps.strip_bare hall]
      rfl
    · rw [hids, collapse_keeps.strip_bare hbare]
      rfl
  · have hsplit : value = (space ++ front) ++ (core ++ (back ++ space')) := by
      rw [hvalue, htrim]
      simp only [List.append_assoc]
    have hfront' := (bare_of_space hspace).append hfront
    have hback' := hback.append (bare_of_space hspace')
    refine Or.inr ⟨space ++ front, core, back ++ space', hsplit, hfront', hcore, hback', ?_, ?_⟩
    · rw [slugify]
      conv_lhs => rw [hsplit]
      rw [slugLoop_keeps.strip hfront' hcore hback', slugLoop_keeps.orModel_core hcore]
    · rw [hids, htrim, collapse_keeps.strip hfront hcore hback, collapse_keeps.orModel_core hcore]

end Cores

section Agreement

/-- The ops server writes no more than the controller. -/
theorem collapse_length_le (value : Bytes) (i : Bool) :
    (collapse i value).length ≤ (slugLoop i value).length := by
  induction value generalizing i with
  | nil => rw [collapse_nil]; exact Nat.zero_le _
  | cons b value ih =>
    have htrue := ih true
    have hfalse := ih false
    have hdash := (byte_facts b).2.2.2
    rw [collapse_cons, slugLoop]
    unfold separates
    cases hslug : isSlugByte (lowerByte b) <;> cases hb : b == 45 <;> cases i <;>
      simp only [hdash, hb, Bool.not_true, Bool.not_false, Bool.or_true, Bool.or_false,
        Bool.false_eq_true, if_true, if_false, List.length_cons] <;> omega

/-- A literal dash behind a separator, or behind a run that the flag remembers. -/
def LooseDash (i : Bool) (value : Bytes) : Prop :=
  (i = true ∧ ∃ rest, value = 45 :: rest) ∨
    ∃ front b rest, value = front ++ b :: 45 :: rest ∧ separates b = true

/-- A loose dash behind the first byte. -/
theorem looseDash_cons {i : Bool} {b : UInt8} {value : Bytes} :
    LooseDash i (b :: value) ↔ (i = true ∧ b = 45) ∨ LooseDash (separates b) value := by
  constructor
  · rintro (⟨hi, rest, heq⟩ | ⟨front, c, rest, heq, hc⟩)
    · exact Or.inl ⟨hi, (List.cons.inj heq).1⟩
    · cases front with
      | nil =>
        obtain ⟨rfl, rfl⟩ := List.cons.inj heq
        exact Or.inr (Or.inl ⟨hc, rest, rfl⟩)
      | cons d front =>
        exact Or.inr (Or.inr ⟨front, c, rest, (List.cons.inj heq).2, hc⟩)
  · rintro (⟨hi, rfl⟩ | ⟨hb, rest, rfl⟩ | ⟨front, c, rest, rfl, hc⟩)
    · exact Or.inl ⟨hi, value, rfl⟩
    · exact Or.inr ⟨[], b, rest, rfl, hb⟩
    · exact Or.inr ⟨b :: front, c, rest, rfl, hc⟩

/-- Both rewritings agree as long as there is no loose dash. -/
theorem slugLoop_eq_collapse_iff (value : Bytes) (i : Bool) :
    slugLoop i value = collapse i value ↔ ¬LooseDash i value := by
  induction value generalizing i with
  | nil =>
    rw [collapse_nil]
    refine ⟨fun _ => ?_, fun _ => by cases i <;> rfl⟩
    rintro (⟨-, rest, heq⟩ | ⟨front, b, rest, heq, -⟩)
    · cases heq
    · exact absurd heq.symm (List.append_ne_nil_of_right_ne_nil _ (List.cons_ne_nil _ _))
  | cons b value ih =>
    rw [looseDash_cons, collapse_cons, slugLoop]
    by_cases hb : b = 45
    · subst hb
      have hlength := collapse_length_le value true
      cases i with
      | true =>
        -- the controller writes the dash, the ops server does not
        refine ⟨fun heq => ?_, fun hnone => absurd (Or.inl ⟨rfl, rfl⟩) hnone⟩
        have hlengths := congrArg List.length heq
        change (slugLoop true value).length + 1 = (collapse true value).length at hlengths
        omega
      | false =>
        have htail := ih true
        change 45 :: slugLoop true value = 45 :: collapse true value ↔ _
        rw [List.cons.injEq, htail]
        simp only [true_and, Bool.false_eq_true, false_and, false_or]
        rfl
    · have hdash : (lowerByte b == 45) = false := by
        rw [(byte_facts b).2.2.2]
        exact beq_eq_false_iff_ne.mpr hb
      cases hslug : isSlugByte (lowerByte b) with
      | true =>
        have hseparates : separates b = false := by
          rw [separates, hslug, beq_eq_false_iff_ne.mpr hb]
          rfl
        simp only [hseparates, hdash, hb, if_true, if_false, Bool.false_eq_true, and_false,
          false_or, List.cons.injEq, true_and]
        exact ih false
      | false =>
        have hseparates : separates b = true := by
          rw [separates, hslug, Bool.not_false, Bool.or_true]
        cases i with
        | true =>
          simp only [hseparates, hb, if_true, if_false, Bool.false_eq_true, Bool.not_true,
            and_false, false_or]
          exact ih true
        | false =>
          simp only [hseparates, hb, if_true, if_false, Bool.false_eq_true, Bool.not_false,
            and_false, false_or, List.cons.injEq, true_and]
          exact ih true

/-- Between its first and its last letter or digit, the text has no dash of its
own behind a dash or behind a byte that becomes one. -/
def NoLooseDash (value : Bytes) : Prop :=
  ∀ front b back, value = front ++ b :: 45 :: back → separates b = true → Bare front ∨ Bare back

theorem Core.not_bare_left {core : Bytes} (hcore : Core core) {front : Bytes} {b : UInt8}
    {rest : Bytes} (h : core = front ++ b :: rest) (hb : separates b = true) : ¬Bare front := by
  obtain ⟨c, tail, hcons, hc⟩ := hcore.first
  cases front with
  | nil =>
    obtain ⟨rfl, -⟩ := List.cons.inj (hcons.symm.trans h)
    rw [((byte_facts c).1 hc).2.2.1] at hb
    cases hb
  | cons d front =>
    obtain ⟨rfl, -⟩ := List.cons.inj (hcons.symm.trans h)
    intro hbare
    rw [hbare c List.mem_cons_self] at hc
    cases hc

theorem Core.not_bare_right {core : Bytes} (hcore : Core core) (front : Bytes) {back : Bytes}
    (h : core = front ++ 45 :: back) : ¬Bare back := by
  obtain ⟨init, c, hsnoc, hc⟩ := hcore.last
  intro hbare
  rcases List.eq_nil_or_concat back with rfl | ⟨middle, d, rfl⟩
  · obtain ⟨-, hlast⟩ := List.append_inj' (hsnoc.symm.trans h) rfl
    rw [(List.cons.inj hlast).1] at hc
    cases hc
  · have hwhole : init ++ [c] = (front ++ 45 :: middle) ++ [d] := by
      rw [← hsnoc, h, List.concat_eq_append, List.append_assoc]
      rfl
    obtain ⟨-, hlast⟩ := List.append_inj' hwhole rfl
    rw [(List.cons.inj hlast).1, hbare d (by rw [List.concat_eq_append]; exact List.mem_concat_self)] at hc
    cases hc

/-- A loose dash of the core is one of the whole text. -/
theorem noLooseDash_iff {front core back : Bytes} (hfront : Bare front) (hcore : Core core)
    (hback : Bare back) :
    NoLooseDash (front ++ (core ++ back)) ↔ ¬LooseDash false core := by
  constructor
  · rintro h (⟨hfalse, -⟩ | ⟨before, b, rest, hsplit, hb⟩)
    · cases hfalse
    · have hwhole : front ++ (core ++ back) = (front ++ before) ++ b :: 45 :: (rest ++ back) := by
        rw [hsplit]
        simp only [List.append_assoc, List.cons_append]
      rcases h _ b _ hwhole hb with hbare | hbare
      · exact hcore.not_bare_left hsplit hb fun c hc => hbare c (List.mem_append_right front hc)
      · refine hcore.not_bare_right (before ++ [b]) (hsplit.trans ?_)
          fun c hc => hbare c (List.mem_append_left back hc)
        rw [List.append_assoc]
        rfl
  · intro h before b after hsplit hb
    have hafter : ∀ lead, back = lead ++ 45 :: after → Bare after := by
      intro lead heq c hc
      exact hback c (heq ▸ List.mem_append_right lead (List.mem_cons_of_mem 45 hc))
    rcases List.append_eq_append_iff.mp hsplit with
      ⟨middle, rfl, hmiddle⟩ | ⟨middle, hfront', -⟩
    · rcases List.append_eq_append_iff.mp hmiddle with ⟨lead, rfl, hlead⟩ | ⟨tail, hcore', htail⟩
      · exact Or.inr (hafter (lead ++ [b]) (by rw [hlead, List.append_assoc]; rfl))
      · match tail, htail with
        | [], htail => exact Or.inr (hafter [b] htail.symm)
        | [c], htail => exact Or.inr (hafter [] (List.cons.inj htail).2.symm)
        | c :: d :: tail, htail =>
          obtain ⟨rfl, hrest⟩ := List.cons.inj htail
          obtain ⟨rfl, -⟩ := List.cons.inj hrest
          exact absurd (Or.inr ⟨middle, b, tail, hcore', hb⟩) h
    · exact Or.inl fun c hc => hfront c (hfront' ▸ List.mem_append_left middle hc)

/-- What the two slugs of a text promise together. -/
structure SlugsAgree (value : Bytes) : Prop where
  same : slugify value = slugifyModelId value
  ne : slugify value ≠ []
  bytes : ∀ b ∈ slugify value, isSlugByte b = true
  first : ∀ b ∈ (slugify value).head?, isEdge b = false
  last : ∀ b ∈ (slugify value).getLast?, isEdge b = false
  fixed : slugify (slugify value) = slugify value
  fixedModelId : slugifyModelId (slugify value) = slugify value

/-- Another pass over a collapsed text changes nothing, in either function. -/
theorem collapse_collapse (value : Bytes) (i : Bool) :
    collapse i (collapse i value) = collapse i value ∧
      slugLoop i (collapse i value) = collapse i value := by
  induction value generalizing i with
  | nil => cases i <;> exact ⟨rfl, rfl⟩
  | cons b value ih =>
    rw [collapse_cons]
    cases hb : separates b with
    | true =>
      have htail := ih true
      cases i with
      | true => exact htail
      | false =>
        have hdash : separates 45 = true := rfl
        rw [if_pos rfl, if_neg Bool.false_ne_true, collapse_cons, hdash, if_pos rfl,
          if_neg Bool.false_ne_true, htail.1]
        refine ⟨rfl, ?_⟩
        change 45 :: slugLoop true (collapse true value) = _
        rw [htail.2]
    | false =>
      have htail := ih false
      unfold separates at hb
      rw [Bool.or_eq_false_iff, Bool.not_eq_false'] at hb
      have hlower := (byte_facts b).2.2.1 hb.2
      have hdash : (lowerByte b == 45) = false := (byte_facts b).2.2.2.trans hb.1
      have hkept : separates (lowerByte b) = false := by
        rw [separates, hlower, hdash, hb.2]
        rfl
      rw [if_neg Bool.false_ne_true, collapse_cons, hkept, if_neg Bool.false_ne_true, hlower, htail.1]
      refine ⟨rfl, ?_⟩
      rw [slugLoop]
      simp only [hlower, hb.2, hdash, if_true, htail.2]

/-- A collapsed text has slug bytes only. -/
theorem collapse_bytes (value : Bytes) (i : Bool) :
    ∀ b ∈ collapse i value, isSlugByte b = true := by
  induction value generalizing i with
  | nil =>
    intro b hb
    rw [collapse_nil] at hb
    exact absurd hb List.not_mem_nil
  | cons c value ih =>
    intro b hb
    rw [collapse_cons] at hb
    cases hc : separates c with
    | true =>
      rw [hc, if_pos rfl] at hb
      cases i with
      | true => exact ih true b hb
      | false =>
        rcases List.mem_cons.mp hb with rfl | hb
        · rfl
        · exact ih true b hb
    | false =>
      rw [hc, if_neg Bool.false_ne_true] at hb
      unfold separates at hc
      rw [Bool.or_eq_false_iff, Bool.not_eq_false'] at hc
      rcases List.mem_cons.mp hb with rfl | hb
      · exact hc.2
      · exact ih false b hb

theorem isAlnum_lowerByte {b : UInt8} (h : isAlnum b = true) :
    isAlnum (lowerByte b) = true ∧ isEdge b = false := by
  have hall : ∀ n < 256, isAlnum (UInt8.ofNat n) = true →
      isAlnum (lowerByte (UInt8.ofNat n)) = true ∧ isEdge (UInt8.ofNat n) = false := by
    decide +kernel
  have hb := hall b.toNat b.toNat_lt
  rw [UInt8.ofNat_toNat] at hb
  exact hb h

/-- A collapsed core is a core. -/
theorem Core.collapse {core : Bytes} (hcore : Core core) : Core (collapse false core) := by
  obtain ⟨c, rest, hcons, hc⟩ := hcore.first
  obtain ⟨init, d, hsnoc, hd⟩ := hcore.last
  obtain ⟨out, hout⟩ := collapse_keeps.ends hd init false
  refine ⟨⟨lowerByte c, Slugs.collapse false rest, ?_, (isAlnum_lowerByte hc).1⟩,
    ⟨out, lowerByte d, ?_, (isAlnum_lowerByte hd).1⟩⟩
  · rw [hcons, collapse_keeps.kept false c rest hc]
  · rw [hsnoc, hout]

/-- The slugs of a core. -/
theorem Core.slugs {core : Bytes} (hcore : Core core) :
    slugify core = slugLoop false core ∧ slugifyModelId core = Slugs.collapse false core := by
  have hnil : Bare [] := fun b hb => absurd hb List.not_mem_nil
  have hstrip := slugLoop_keeps.strip hnil hcore hnil false
  have hstrip' := collapse_keeps.strip hnil hcore hnil false
  rw [List.nil_append, List.append_nil] at hstrip hstrip'
  obtain ⟨c, rest, hcons, hc⟩ := hcore.first
  obtain ⟨init, d, hsnoc, hd⟩ := hcore.last
  have htrim := @trim_kept isSpace [] [] core (fun b hb => absurd hb List.not_mem_nil)
    (fun b hb => absurd hb List.not_mem_nil) ⟨c, rest, hcons, ((byte_facts c).1 hc).2.2.2.1⟩
    ⟨init, d, hsnoc, ((byte_facts d).1 hd).2.2.2.1⟩
  rw [List.nil_append, List.append_nil] at htrim
  refine ⟨?_, ?_⟩
  · rw [slugify, hstrip, slugLoop_keeps.orModel_core hcore]
  · rw [slugifyModelId, replaceRuns_twice false false id]
    change orModel (stripEdges (Slugs.collapse false (trimCopy core))) = _
    rw [trimCopy, htrim, hstrip', collapse_keeps.orModel_core hcore]

/-- Both slug functions give the same slug, with all that a slug promises, exactly
for the texts without a loose dash. -/
theorem slugs_agree_iff (value : Bytes) : SlugsAgree value ↔ NoLooseDash value := by
  rcases slugs_cases value with ⟨hbare, hslug, hid⟩ |
    ⟨front, core, back, rfl, hfront, hcore, hback, hslug, hid⟩
  · refine ⟨fun _ before b after hsplit _ => Or.inl fun c hc => hbare c ?_, fun _ => ?_⟩
    · rw [hsplit]
      exact List.mem_append_left _ hc
    · refine ⟨hslug.trans hid.symm, ?_, ?_, ?_, ?_, ?_, ?_⟩ <;> rw [hslug] <;> decide +kernel
  · rw [noLooseDash_iff hfront hcore hback, ← slugLoop_eq_collapse_iff]
    refine ⟨fun h => ?_, fun h => ?_⟩
    · rw [← hslug, ← hid]
      exact h.same
    · have hsame : slugify (front ++ (core ++ back)) = Slugs.collapse false core := hslug.trans h
      have hslugs := hcore.collapse.slugs
      have hagain := collapse_collapse core false
      obtain ⟨c, rest, hcons, hc⟩ := hcore.collapse.first
      obtain ⟨init, d, hsnoc, hd⟩ := hcore.collapse.last
      refine ⟨hsame.trans hid.symm, ?_, ?_, ?_, ?_, ?_, ?_⟩ <;> rw [hsame]
      · rw [hcons]
        exact List.cons_ne_nil _ _
      · exact collapse_bytes core false
      · intro b hb
        rw [hcons] at hb
        rw [← Option.some.inj hb]
        exact (isAlnum_lowerByte hc).2
      · intro b hb
        rw [hsnoc, List.getLast?_concat] at hb
        rw [← Option.some.inj hb]
        exact (isAlnum_lowerByte hd).2
      · exact hslugs.1.trans hagain.2
      · exact hslugs.2.trans hagain.1

/-- The controller keeps the second of two dashes. -/
theorem slugs_differ : slugify (ascii "a--b") = ascii "a--b" ∧
    slugifyModelId (ascii "a--b") = ascii "a-b" ∧ ¬SlugsAgree (ascii "a--b") := by
  have hslug : slugify (ascii "a--b") = ascii "a--b" := by decide
  have hid : slugifyModelId (ascii "a--b") = ascii "a-b" := by decide
  refine ⟨hslug, hid, fun h => ?_⟩
  have hsame := h.same
  rw [hslug, hid] at hsame
  exact absurd hsame (by decide)

end Agreement

end LayerInference.Slugs
