import LayerInference.ConnectionLoop

/-!
# Requests and the cuts between chunks

The reader tests the size of a header between chunks and drops what a chunk
holds behind a body. What the loop of a connection obtains is therefore the
same for all cuts only where no header ends in the range in which the test
depends on the cut, and where the bytes behind a request that keeps the
connection are read in the same way whichever of their first bytes are lost.
-/

namespace LayerInference.RequestSegmentation

open ByteStrings HttpMessages HttpTransfer TextStreams ChunkedScans ConnectionLoop

section Condition

/-- The request that a header makes with the bytes behind it, and the bytes
behind its body. -/
def firstRequest (headerText behind : Bytes) : Except Bytes (HttpRequest × Bytes) :=
  match parseRequestHead headerText with
  | .error e => .error e
  | .ok head =>
    match parseContentLength requestReader.invalidLength head.headers with
    | .error e => .error e
    | .ok expected =>
      if behind.length < expected then .error closedEarly
      else .ok ({ head with body := behind.take expected }, behind.drop expected)

/-- Bytes that may lose any number of their first bytes, less than one chunk:
they hold no header and stay on one side of the limit, or their header is
longer than the limit whatever is lost, or it ends within the limit, starts
with at least one chunk and means the same without a part of this chunk. -/
inductive Settled : Bytes → Prop
  | unterminated {left : Bytes} (hfind : findHeaderEnd left = none)
      (hlength : left.length ≤ maxHttpHeaderBytes ∨
        maxHttpHeaderBytes + maxRecvBytes ≤ left.length) : Settled left
  | tooLong {left : Bytes} {headerEnd : ℕ} (hfind : findHeaderEnd left = some headerEnd)
      (hlong : maxHttpHeaderBytes + 2 * maxRecvBytes ≤ headerEnd + 4) : Settled left
  | same {left : Bytes} {headerEnd : ℕ} (hfind : findHeaderEnd left = some headerEnd)
      (hchunk : maxRecvBytes ≤ headerEnd) (hshort : headerEnd + 4 ≤ maxHttpHeaderBytes + 1)
      (hsame : ∀ k < maxRecvBytes,
        firstRequest ((left.take headerEnd).drop k) (left.drop (headerEnd + 4)) =
          firstRequest (left.take headerEnd) (left.drop (headerEnd + 4)))
      (hrest : ∀ request rest,
        firstRequest (left.take headerEnd) (left.drop (headerEnd + 4)) = .ok (request, rest) →
          requestWantsKeepAlive request = true → Settled rest) : Settled left

/-- Streams that are read in the same way for all cuts: the first header has no
end, ends more than one chunk behind the limit, or ends within the limit; and
what follows a request that keeps the connection is settled. -/
def Steady (stream : Bytes) : Prop :=
  match findHeaderEnd stream with
  | none => True
  | some headerEnd =>
    maxHttpHeaderBytes + maxRecvBytes < headerEnd + 4 ∨
      (headerEnd + 4 ≤ maxHttpHeaderBytes + 1 ∧ ∀ request rest,
        firstRequest (stream.take headerEnd) (stream.drop (headerEnd + 4)) = .ok (request, rest) →
          requestWantsKeepAlive request = true → Settled rest)

/-- What the loop obtains for some cut of the stream. -/
def Obtains (stream : Bytes) (obtained : List HttpRequest × Option Bytes) : Prop :=
  ∃ chunks, Cut maxRecvBytes stream chunks ∧
    handleClientConnection (arrival chunks) = obtained

end Condition

section Verdicts

variable {stream : Bytes} {headerEnd : ℕ}

theorem maxRecvBytes_pos : 0 < maxRecvBytes := Nat.succ_pos _

/-- The verdict on a start of the stream, before the header ends. -/
theorem verdict_take_open {i : ℕ} (hfind : findHeaderEnd (stream.take i) = none)
    (hi : i ≤ stream.length) :
    verdict (stream.take i) =
      if i < maxHttpHeaderBytes + 1 then none else some (.error requestReader.headersTooLong) := by
  have hlength : (stream.take i).length = i := by
    rw [List.length_take]
    omega
  unfold verdict
  simp only [hfind, hlength]
  by_cases hlong : i > maxHttpHeaderBytes
  · rw [if_pos hlong, if_neg (by omega)]
  · rw [if_neg hlong, if_pos (by omega)]

theorem findHeaderEnd_take (hfind : findHeaderEnd stream = some headerEnd) {i : ℕ}
    (hi : i ≤ stream.length) :
    findHeaderEnd (stream.take i) = if i < headerEnd + 4 then none else some headerEnd :=
  find_take hfind hi

theorem findHeaderEnd_le (hfind : findHeaderEnd stream = some headerEnd) :
    headerEnd + 4 ≤ stream.length :=
  find_le hfind

theorem take_header {i : ℕ} (hi : headerEnd + 4 ≤ i) :
    (stream.take i).take headerEnd = stream.take headerEnd := by
  rw [List.take_take, Nat.min_eq_left (by omega)]

/-- The verdict behind a header that cannot be used. -/
theorem verdict_take_error (hfind : findHeaderEnd stream = some headerEnd) {e : Bytes}
    (hparse : parseRequestHead (stream.take headerEnd) = .error e ∨
      ∃ head, parseRequestHead (stream.take headerEnd) = .ok head ∧
        parseContentLength requestReader.invalidLength head.headers = .error e)
    {i : ℕ} (hi : i ≤ stream.length) (hlong : headerEnd + 4 ≤ i) :
    verdict (stream.take i) = some (.error e) := by
  have htake := findHeaderEnd_take hfind hi
  rw [if_neg (by omega)] at htake
  unfold verdict
  simp only [htake, take_header hlong]
  cases hparse with
  | inl herror => rw [herror]
  | inr hhead =>
    obtain ⟨head, hok, herror⟩ := hhead
    simp only [hok, herror]

/-- The verdict behind a header that announces a body. -/
theorem verdict_take_header (hfind : findHeaderEnd stream = some headerEnd) {head : HttpRequest}
    {expected : ℕ} (hparse : parseRequestHead (stream.take headerEnd) = .ok head)
    (hexpected : parseContentLength requestReader.invalidLength head.headers = .ok expected)
    {i : ℕ} (hi : i ≤ stream.length) (hlong : headerEnd + 4 ≤ i) :
    verdict (stream.take i) = if i < headerEnd + 4 + expected then none
      else some (.ok { head with body := (stream.drop (headerEnd + 4)).take expected }) := by
  have htake := findHeaderEnd_take hfind hi
  have hlength : (stream.take i).length = i := by
    rw [List.length_take]
    omega
  rw [if_neg (by omega)] at htake
  unfold verdict
  simp only [htake, take_header hlong, hparse, hexpected, hlength]
  by_cases hmore : i < headerEnd + 4 + expected
  · rw [if_pos hmore, if_pos hmore]
  · rw [if_neg hmore, if_neg hmore, List.drop_take, List.take_take,
      Nat.min_eq_left (by omega)]

end Verdicts

section Outcomes

variable {stream : Bytes} {headerEnd : ℕ} {obtained : List HttpRequest × Option Bytes}

theorem exists_obtains (stream : Bytes) : ∃ obtained, Obtains stream obtained := by
  obtain ⟨chunks, hcut⟩ := exists_cut maxRecvBytes_pos stream
  exact ⟨_, chunks, hcut, rfl⟩

/-- A stream without any verdict ends inside a request. -/
theorem obtains_open
    (hopen : ∀ i, 0 < i → i ≤ stream.length → verdict (stream.take i) = none)
    (h : Obtains stream obtained) : obtained = ([], some closedEarly) := by
  obtain ⟨chunks, hcut, rfl⟩ := h
  rw [handle_arrival hcut.nonempty, scan_open hopen hcut]

/-- A stream that decides for an error. -/
theorem obtains_error {start : ℕ} {e : Bytes}
    (hdecides : DecidesAt verdict maxRecvBytes stream start (.error e)) (hstart : 0 < start)
    (hle : start ≤ stream.length) (h : Obtains stream obtained) :
    obtained = ([], some e) := by
  obtain ⟨chunks, hcut, rfl⟩ := h
  obtain ⟨k, rest, -, -, hscan⟩ := scan_decides hdecides hstart hle hcut
  rw [handle_arrival hcut.nonempty, hscan]

/-- Without the end of a header, the length of the stream decides. -/
theorem obtains_unterminated (hfind : findHeaderEnd stream = none)
    (h : Obtains stream obtained) :
    obtained = ([], some (if maxHttpHeaderBytes < stream.length then
      requestReader.headersTooLong else closedEarly)) := by
  have hnone (i : ℕ) : findHeaderEnd (stream.take i) = none :=
    find_infix_eq_none hfind (List.take_prefix i stream).isInfix
  split
  · next hlong =>
    have hdecides : DecidesAt verdict maxRecvBytes stream (maxHttpHeaderBytes + 1)
        (.error requestReader.headersTooLong) :=
      fun i _ hi _ => verdict_take_open (hnone i) hi
    exact obtains_error hdecides (Nat.succ_pos _) hlong h
  · next hshort =>
    refine obtains_open ?_ h
    intro i _ hi
    rw [verdict_take_open (hnone i) hi, if_pos (by omega)]

/-- A header that ends more than one chunk behind the limit is refused. -/
theorem obtains_tooLong (hfind : findHeaderEnd stream = some headerEnd)
    (hlong : maxHttpHeaderBytes + maxRecvBytes < headerEnd + 4) (h : Obtains stream obtained) :
    obtained = ([], some requestReader.headersTooLong) := by
  have hle := findHeaderEnd_le hfind
  have hdecides : DecidesAt verdict maxRecvBytes stream (maxHttpHeaderBytes + 1)
      (.error requestReader.headersTooLong) := by
    intro i _ hi hbefore
    have htake := findHeaderEnd_take hfind hi
    rw [if_pos (by omega)] at htake
    exact verdict_take_open htake hi
  exact obtains_error hdecides (Nat.succ_pos _) (by omega) h

/-- A header within the limit is seen before its size matters. -/
theorem verdict_take_before (hfind : findHeaderEnd stream = some headerEnd)
    (hshort : headerEnd + 4 ≤ maxHttpHeaderBytes + 1) {i : ℕ} (hi : i ≤ stream.length)
    (hbefore : i < headerEnd + 4) : verdict (stream.take i) = none := by
  have htake := findHeaderEnd_take hfind hi
  rw [if_pos hbefore] at htake
  rw [verdict_take_open htake hi, if_pos (by omega)]

/-- The first request of a stream fails. -/
theorem obtains_firstRequest_error (hfind : findHeaderEnd stream = some headerEnd)
    (hshort : headerEnd + 4 ≤ maxHttpHeaderBytes + 1) {e : Bytes}
    (hfirst : firstRequest (stream.take headerEnd) (stream.drop (headerEnd + 4)) = .error e)
    (h : Obtains stream obtained) : obtained = ([], some e) := by
  have hle := findHeaderEnd_le hfind
  have hrefused (hparse : parseRequestHead (stream.take headerEnd) = .error e ∨
      ∃ head, parseRequestHead (stream.take headerEnd) = .ok head ∧
        parseContentLength requestReader.invalidLength head.headers = .error e) :
      obtained = ([], some e) := by
    have hdecides : DecidesAt verdict maxRecvBytes stream (headerEnd + 4) (.error e) := by
      intro i _ hi _
      by_cases hbefore : i < headerEnd + 4
      · rw [if_pos hbefore, verdict_take_before hfind hshort hi hbefore]
      · rw [if_neg hbefore, verdict_take_error hfind hparse hi (Nat.not_lt.mp hbefore)]
    exact obtains_error hdecides (Nat.succ_pos _) hle h
  unfold firstRequest at hfirst
  cases hparse : parseRequestHead (stream.take headerEnd) with
  | error e' =>
    simp only [hparse] at hfirst
    cases hfirst
    exact hrefused (Or.inl hparse)
  | ok head =>
    simp only [hparse] at hfirst
    cases hexpected : parseContentLength requestReader.invalidLength head.headers with
    | error e' =>
      simp only [hexpected] at hfirst
      cases hfirst
      exact hrefused (Or.inr ⟨head, hparse, hexpected⟩)
    | ok expected =>
      simp only [hexpected] at hfirst
      split at hfirst
      · next hmissing =>
        cases hfirst
        rw [List.length_drop] at hmissing
        refine obtains_open ?_ h
        intro i _ hi
        by_cases hbefore : i < headerEnd + 4
        · exact verdict_take_before hfind hshort hi hbefore
        · rw [verdict_take_header hfind hparse hexpected hi (Nat.not_lt.mp hbefore),
            if_pos (by omega)]
      · cases hfirst

/-- The parts of a first request: where it is decided, and what is behind it. -/
theorem firstRequest_ok (hfind : findHeaderEnd stream = some headerEnd)
    (hshort : headerEnd + 4 ≤ maxHttpHeaderBytes + 1) {request : HttpRequest} {rest : Bytes}
    (hfirst : firstRequest (stream.take headerEnd) (stream.drop (headerEnd + 4)) =
      .ok (request, rest)) :
    ∃ expected, parseContentLength requestReader.invalidLength request.headers = .ok expected ∧
      headerEnd + 4 + expected ≤ stream.length ∧
        rest = stream.drop (headerEnd + 4 + expected) ∧
          DecidesAt verdict maxRecvBytes stream (headerEnd + 4 + expected) (.ok request) := by
  have hle := findHeaderEnd_le hfind
  unfold firstRequest at hfirst
  cases hparse : parseRequestHead (stream.take headerEnd) with
  | error e =>
    simp only [hparse] at hfirst
    cases hfirst
  | ok head =>
    simp only [hparse] at hfirst
    cases hexpected : parseContentLength requestReader.invalidLength head.headers with
    | error e =>
      simp only [hexpected] at hfirst
      cases hfirst
    | ok expected =>
      simp only [hexpected] at hfirst
      split at hfirst
      · cases hfirst
      · next hwhole =>
        cases hfirst
        rw [List.length_drop] at hwhole
        refine ⟨expected, hexpected, by omega, List.drop_drop, ?_⟩
        intro i _ hi _
        by_cases hbefore : i < headerEnd + 4
        · rw [if_pos (by omega), verdict_take_before hfind hshort hi hbefore]
        · exact verdict_take_header hfind hparse hexpected hi (Nat.not_lt.mp hbefore)

/-- The first request is obtained, and behind it what the bytes give that no
chunk took away. -/
theorem obtains_firstRequest_ok (hfind : findHeaderEnd stream = some headerEnd)
    (hshort : headerEnd + 4 ≤ maxHttpHeaderBytes + 1) {request : HttpRequest} {rest : Bytes}
    (hfirst : firstRequest (stream.take headerEnd) (stream.drop (headerEnd + 4)) =
      .ok (request, rest)) :
    Obtains stream obtained ↔
      if requestWantsKeepAlive request = true then
        ∃ k < maxRecvBytes, ∃ later, Obtains (rest.drop k) later ∧
          obtained = (request :: later.1, later.2)
      else obtained = ([request], none) := by
  obtain ⟨expected, -, hwhole, rfl, hdecides⟩ := firstRequest_ok hfind hshort hfirst
  have hpos : 0 < headerEnd + 4 + expected := by omega
  constructor
  · rintro ⟨chunks, hcut, rfl⟩
    obtain ⟨k, rest, hk, hrest, hscan⟩ := scan_decides hdecides hpos hwhole hcut
    rw [handle_arrival hcut.nonempty, hscan]
    dsimp only
    split
    · rw [← List.drop_drop] at hrest
      exact ⟨k, hk, _, ⟨rest, hrest, rfl⟩, rfl⟩
    · rfl
  · intro h
    split at h
    · next hkeep =>
      obtain ⟨k, hk, later, ⟨rest, hrest, hlater⟩, rfl⟩ := h
      -- behind the end of the stream nothing more can be lost
      have hclip : (stream.drop (headerEnd + 4 + expected)).drop k =
          stream.drop (headerEnd + 4 + expected +
            min k (stream.length - (headerEnd + 4 + expected))) := by
        rw [List.drop_drop]
        by_cases hinside : headerEnd + 4 + expected + k ≤ stream.length
        · rw [Nat.min_eq_left (by omega)]
        · rw [Nat.min_eq_right (by omega), List.drop_eq_nil_of_le (by omega),
            List.drop_eq_nil_of_le (by omega)]
      rw [hclip] at hrest
      obtain ⟨chunks, hcut, hscan⟩ :=
        exists_scan_decides hdecides hpos (by omega) (by omega) hrest
      refine ⟨chunks, hcut, ?_⟩
      rw [handle_arrival hcut.nonempty, hscan]
      dsimp only
      rw [if_pos hkeep, hlater]
    · next hclose =>
      obtain ⟨chunks, hcut⟩ := exists_cut maxRecvBytes_pos stream
      obtain ⟨k, rest, -, -, hscan⟩ := scan_decides hdecides hpos hwhole hcut
      refine ⟨chunks, hcut, ?_⟩
      rw [handle_arrival hcut.nonempty, hscan, h]
      dsimp only
      rw [if_neg hclose]

end Outcomes

section Differences

variable {stream : Bytes} {headerEnd : ℕ}

def missingLine : Bytes := ascii "missing HTTP request line"

theorem parseRequestHead_error {text e : Bytes} (h : parseRequestHead text = .error e) :
    (text = [] ∧ e = missingLine) ∨ e = ascii "malformed HTTP request line" := by
  unfold parseRequestHead at h
  split at h
  · next hlines =>
    cases h
    cases text with
    | nil => exact Or.inl ⟨rfl, rfl⟩
    | cons b text =>
      unfold headerLines getLines at hlines
      rw [List.map_eq_nil_iff] at hlines
      split at hlines
      · cases hlines
      · split at hlines
        · cases hlines
        · cases hlines
  · dsimp only at h
    split at h
    · cases h
      exact Or.inr rfl
    · cases h

theorem parseContentLength_error {invalid e : Bytes} {headers : Headers}
    (h : parseContentLength invalid headers = .error e) : e = invalid := by
  unfold parseContentLength at h
  split at h
  · cases h
  · split at h
    · cases h
      rfl
    · split at h
      · cases h
        rfl
      · split at h
        · cases h
          rfl
        · cases h

/-- The errors that a header can give. -/
theorem verdict_error (hfind : findHeaderEnd stream = some headerEnd) {e : Bytes}
    (h : verdict stream = some (.error e)) :
    (stream.take headerEnd = [] ∧ e = missingLine) ∨ e = ascii "malformed HTTP request line" ∨
      e = requestReader.invalidLength := by
  unfold verdict at h
  simp only [hfind] at h
  cases hparse : parseRequestHead (stream.take headerEnd) with
  | error e' =>
    simp only [hparse] at h
    cases h
    cases parseRequestHead_error hparse with
    | inl hmissing => exact Or.inl hmissing
    | inr hmalformed => exact Or.inr (Or.inl hmalformed)
  | ok head =>
    simp only [hparse] at h
    cases hexpected : parseContentLength requestReader.invalidLength head.headers with
    | error e' =>
      simp only [hexpected] at h
      cases h
      exact Or.inr (Or.inr (parseContentLength_error hexpected))
    | ok expected =>
      simp only [hexpected] at h
      split at h
      · cases h
      · cases h

/-- A known header is not refused for its size. -/
theorem verdict_ne_tooLong (hfind : findHeaderEnd stream = some headerEnd) :
    verdict stream ≠ some (.error requestReader.headersTooLong) := by
  intro h
  rcases verdict_error hfind h with ⟨-, he⟩ | he | he
  · exact absurd he (by decide)
  · exact absurd he (by decide)
  · exact absurd he (by decide)

/-- An empty header is the only one without a request line. -/
theorem obtains_missing (h : Obtains stream ([], some missingLine)) :
    findHeaderEnd stream = some 0 := by
  obtain ⟨chunks, hcut, hhandle⟩ := h
  rw [handle_arrival hcut.nonempty] at hhandle
  cases hscan : scan verdict [] chunks with
  | none =>
    simp only [hscan] at hhandle
    have hclosed : closedEarly = missingLine := Option.some.inj (congrArg Prod.snd hhandle)
    exact absurd hclosed (by decide)
  | some found =>
    obtain ⟨result, rest⟩ := found
    simp only [hscan] at hhandle
    cases result with
    | ok request =>
      dsimp only at hhandle
      split at hhandle
      · cases hhandle
      · cases hhandle
    | error e =>
      obtain ⟨more, hstart, hverdict⟩ := scan_some hscan
      have he : e = missingLine := Option.some.inj (congrArg Prod.snd hhandle)
      rw [List.nil_append, he] at hverdict
      rw [hcut.whole] at hstart
      obtain ⟨rest, hrest⟩ := hstart
      cases hfind : findHeaderEnd more with
      | none =>
        unfold verdict at hverdict
        simp only [hfind] at hverdict
        split at hverdict
        · have hlong : requestReader.headersTooLong = missingLine :=
            Except.error.inj (Option.some.inj hverdict)
          exact absurd hlong (by decide)
        · cases hverdict
      | some headerEnd =>
        have hle := findHeaderEnd_le hfind
        rcases verdict_error hfind hverdict with ⟨hempty, -⟩ | hother | hother
        · have hzero : headerEnd = 0 := by
            have hlength := congrArg List.length hempty
            rw [List.length_take, List.length_nil] at hlength
            omega
          rw [← hrest]
          exact find_append_of_some rest (hzero ▸ hfind)
        · exact absurd hother (by decide)
        · exact absurd hother (by decide)

/-- Within one chunk behind the limit, the cut decides whether the header is
refused for its size. -/
theorem exists_two_obtains (hfind : findHeaderEnd stream = some headerEnd)
    (hlong : maxHttpHeaderBytes + 1 < headerEnd + 4)
    (hshort : headerEnd + 4 ≤ maxHttpHeaderBytes + maxRecvBytes) :
    ∃ first second, Obtains stream first ∧ Obtains stream second ∧ first ≠ second := by
  have hle := findHeaderEnd_le hfind
  have hlimit : maxRecvBytes ≤ maxHttpHeaderBytes := by decide
  have hopen : ∀ i, 0 < i → i ≤ maxHttpHeaderBytes → verdict (stream.take i) = none := by
    intro i _ hi
    have htake := findHeaderEnd_take (i := i) hfind (by omega)
    rw [if_pos (by omega)] at htake
    rw [verdict_take_open htake (by omega), if_pos (by omega)]
  have hrefused : Obtains stream ([], some requestReader.headersTooLong) := by
    obtain ⟨rest, hrest⟩ :=
      exists_cut maxRecvBytes_pos (stream.drop (maxHttpHeaderBytes + 1))
    obtain ⟨chunks, hcut, hscan⟩ :=
      scan_jump maxRecvBytes_pos Nat.one_pos maxRecvBytes_pos (by omega) hopen hrest
    have htake := findHeaderEnd_take (i := maxHttpHeaderBytes + 1) hfind (by omega)
    rw [if_pos hlong] at htake
    have hverdict := verdict_take_open htake (by omega)
    rw [if_neg (Nat.lt_irrefl _), List.take_add] at hverdict
    rw [scan_cons_of_some hverdict] at hscan
    refine ⟨chunks, hcut, ?_⟩
    rw [handle_arrival hcut.nonempty, hscan]
  obtain ⟨rest, hrest⟩ := exists_cut maxRecvBytes_pos (stream.drop (headerEnd + 4))
  have hend : headerEnd + 4 - maxRecvBytes + maxRecvBytes = headerEnd + 4 := by omega
  rw [← hend] at hrest
  obtain ⟨chunks, hcut, hscan⟩ :=
    scan_jump maxRecvBytes_pos maxRecvBytes_pos (le_refl _) (by omega)
      (fun i hpos hi => hopen i hpos (by omega)) hrest
  refine ⟨_, _, hrefused, ⟨chunks, hcut, rfl⟩, ?_⟩
  intro hsame
  rw [handle_arrival hcut.nonempty] at hsame
  have hseen : stream.take (headerEnd + 4 - maxRecvBytes) ++
      (stream.drop (headerEnd + 4 - maxRecvBytes)).take maxRecvBytes =
        stream.take (headerEnd + 4) := by
    rw [← List.take_add, hend]
  have htake := findHeaderEnd_take hfind hle
  rw [if_neg (Nat.lt_irrefl _)] at htake
  cases hresult : scan verdict [] chunks with
  | none =>
    simp only [hresult] at hsame
    have hclosed : requestReader.headersTooLong = closedEarly :=
      Option.some.inj (congrArg Prod.snd hsame)
    exact absurd hclosed (by decide)
  | some found =>
    obtain ⟨result, behind⟩ := found
    rw [hresult] at hscan
    -- every verdict from here on is one on a known header
    have hlater : ∃ more, verdict (stream.take (headerEnd + 4) ++ more) = some result := by
      cases hverdict : verdict (stream.take (headerEnd + 4)) with
      | none =>
        rw [scan_cons_of_none ((congrArg verdict hseen).trans hverdict), hseen] at hscan
        obtain ⟨more, -, hmore⟩ := scan_some hscan.symm
        exact ⟨more, hmore⟩
      | some other =>
        rw [scan_cons_of_some ((congrArg verdict hseen).trans hverdict)] at hscan
        refine ⟨[], ?_⟩
        rw [List.append_nil, hverdict]
        cases hscan
        rfl
    obtain ⟨more, hmore⟩ := hlater
    have hne := verdict_ne_tooLong (find_append_of_some more htake)
    simp only [hresult] at hsame
    cases result with
    | error e =>
      have he : requestReader.headersTooLong = e := Option.some.inj (congrArg Prod.snd hsame)
      rw [← he] at hmore
      exact hne hmore
    | ok request =>
      dsimp only at hsame
      split at hsame
      · cases hsame
      · cases hsame

end Differences

section Independence

/-- Bytes that give the same whichever of their first bytes a chunk took away. -/
def Insensitive (left : Bytes) : Prop :=
  ∀ k < maxRecvBytes, ∀ l < maxRecvBytes, ∀ first second,
    Obtains (left.drop k) first → Obtains (left.drop l) second → first = second

variable {stream left : Bytes} {headerEnd : ℕ}

/-- Lost bytes move the end of a long header. -/
theorem findHeaderEnd_drop (hfind : findHeaderEnd left = some headerEnd) {k : ℕ}
    (hk : k ≤ headerEnd) : findHeaderEnd (left.drop k) = some (headerEnd - k) :=
  find_drop hfind hk

theorem drop_parts (left : Bytes) {headerEnd k : ℕ} (hk : k ≤ headerEnd) :
    (left.drop k).take (headerEnd - k) = (left.take headerEnd).drop k ∧
      (left.drop k).drop (headerEnd - k + 4) = left.drop (headerEnd + 4) := by
  refine ⟨List.drop_take.symm, ?_⟩
  rw [List.drop_drop]
  exact congrArg (fun n => left.drop n) (by omega)

/-- What a settled rest gives does not depend on the bytes lost in front. -/
theorem Settled.insensitive (h : Settled left) : Insensitive left := by
  induction h with
  | @unterminated left hfind hlength =>
    intro k hk l hl first second hfirst hsecond
    have hnone (n : ℕ) : findHeaderEnd (left.drop n) = none :=
      find_infix_eq_none hfind (List.drop_suffix n left).isInfix
    rw [obtains_unterminated (hnone k) hfirst, obtains_unterminated (hnone l) hsecond,
      List.length_drop, List.length_drop]
    cases hlength with
    | inl hle => rw [if_neg (by omega), if_neg (by omega)]
    | inr hlong => rw [if_pos (by omega), if_pos (by omega)]
  | @tooLong left headerEnd hfind hlong =>
    intro k hk l hl first second hfirst hsecond
    have hlimit : 0 < maxHttpHeaderBytes := Nat.succ_pos _
    have hrefused (n : ℕ) (hn : n < maxRecvBytes) (obtained : List HttpRequest × Option Bytes)
        (hobtained : Obtains (left.drop n) obtained) :
        obtained = ([], some requestReader.headersTooLong) := by
      have hchunk : 4 ≤ maxRecvBytes := by decide
      exact obtains_tooLong (findHeaderEnd_drop hfind (by omega)) (by omega) hobtained
    rw [hrefused k hk first hfirst, hrefused l hl second hsecond]
  | @same left headerEnd hfind hchunk hshort hsame hrest ih =>
    intro k hk l hl first second hfirst hsecond
    have hdrop (n : ℕ) (hn : n < maxRecvBytes) :
        findHeaderEnd (left.drop n) = some (headerEnd - n) :=
      findHeaderEnd_drop hfind (by omega)
    have hrequest (n : ℕ) (hn : n < maxRecvBytes) :
        firstRequest ((left.drop n).take (headerEnd - n))
          ((left.drop n).drop (headerEnd - n + 4)) =
            firstRequest (left.take headerEnd) (left.drop (headerEnd + 4)) := by
      obtain ⟨htake, hbehind⟩ := @drop_parts left headerEnd n (by omega)
      rw [htake, hbehind, hsame n hn]
    cases hresult : firstRequest (left.take headerEnd) (left.drop (headerEnd + 4)) with
    | error e =>
      rw [obtains_firstRequest_error (hdrop k hk) (by omega) ((hrequest k hk).trans hresult) hfirst,
        obtains_firstRequest_error (hdrop l hl) (by omega) ((hrequest l hl).trans hresult) hsecond]
    | ok found =>
      obtain ⟨request, rest⟩ := found
      have hat (n : ℕ) (hn : n < maxRecvBytes) := (hrequest n hn).trans hresult
      rw [obtains_firstRequest_ok (hdrop k hk) (by omega) (hat k hk)] at hfirst
      rw [obtains_firstRequest_ok (hdrop l hl) (by omega) (hat l hl)] at hsecond
      by_cases hkeep : requestWantsKeepAlive request = true
      · rw [if_pos hkeep] at hfirst hsecond
        obtain ⟨m, hm, later, hlater, rfl⟩ := hfirst
        obtain ⟨n, hn, other, hother, rfl⟩ := hsecond
        rw [ih request rest hresult hkeep m hm n hn later other hlater hother]
      · rw [if_neg hkeep] at hfirst hsecond
        rw [hfirst, hsecond]

/-- A header in the first chunk is lost by some cut and not by another. -/
theorem Insensitive.chunk_le (h : Insensitive left) (hfind : findHeaderEnd left = some headerEnd) :
    maxRecvBytes ≤ headerEnd := by
  by_contra hinside
  have hchunk : 1 < maxRecvBytes := by decide
  have hempty : findHeaderEnd (left.drop headerEnd) = some 0 := by
    rw [findHeaderEnd_drop hfind (le_refl _), Nat.sub_self]
  have hmissing : Obtains (left.drop headerEnd) ([], some missingLine) := by
    obtain ⟨obtained, hobtained⟩ := exists_obtains (left.drop headerEnd)
    have hfirst : firstRequest ((left.drop headerEnd).take 0)
        ((left.drop headerEnd).drop (0 + 4)) = .error missingLine := rfl
    rw [obtains_firstRequest_error hempty (by decide) hfirst hobtained] at hobtained
    exact hobtained
  have hevery (k : ℕ) (hk : k < maxRecvBytes) : findHeaderEnd (left.drop k) = some 0 := by
    obtain ⟨obtained, hobtained⟩ := exists_obtains (left.drop k)
    have hsame := h headerEnd (Nat.not_le.mp hinside) k hk _ _ hmissing hobtained
    rw [← hsame] at hobtained
    exact obtains_missing hobtained
  have hzero := hevery 0 (by omega)
  have hone := hevery 1 hchunk
  -- two such headers, one byte apart, would give one byte two values
  have hstart := List.isPrefixOf_iff_prefix.mpr (find_zero hzero)
  have hnext := List.isPrefixOf_iff_prefix.mpr (find_zero hone)
  cases left with
  | nil => cases hstart
  | cons b left =>
    cases left with
    | nil => cases hnext
    | cons c left =>
      simp only [List.drop_zero, List.drop_succ_cons, List.isPrefixOf, Bool.and_eq_true,
        beq_iff_eq] at hstart hnext
      rw [← hnext.1] at hstart
      exact absurd hstart.2.1 (by decide)

/-- Two first requests that give the same leave the same bytes behind them. -/
theorem firstRequest_rest {text other behind rest rest' : Bytes} {request : HttpRequest}
    (h : firstRequest text behind = .ok (request, rest))
    (h' : firstRequest other behind = .ok (request, rest')) : rest = rest' := by
  have hparts (text rest : Bytes) (h : firstRequest text behind = .ok (request, rest)) :
      ∃ expected, rest = behind.drop expected ∧
        parseContentLength requestReader.invalidLength request.headers = .ok expected := by
    unfold firstRequest at h
    split at h
    · cases h
    · split at h
      · cases h
      · next expected hexpected =>
        split at h
        · cases h
        · cases h
          exact ⟨expected, rfl, hexpected⟩
  obtain ⟨expected, rfl, hexpected⟩ := hparts text rest h
  obtain ⟨expected', rfl, hexpected'⟩ := hparts other rest' h'
  rw [hexpected] at hexpected'
  rw [Except.ok.inj hexpected']

/-- What is obtained tells the first request. -/
theorem obtains_firstRequest {obtained : List HttpRequest × Option Bytes}
    (hfind : findHeaderEnd stream = some headerEnd)
    (hshort : headerEnd + 4 ≤ maxHttpHeaderBytes + 1) (h : Obtains stream obtained) :
    match firstRequest (stream.take headerEnd) (stream.drop (headerEnd + 4)) with
    | .error e => obtained = ([], some e)
    | .ok (request, _) => obtained.1.head? = some request := by
  cases hresult : firstRequest (stream.take headerEnd) (stream.drop (headerEnd + 4)) with
  | error e => exact obtains_firstRequest_error hfind hshort hresult h
  | ok found =>
    obtain ⟨request, rest⟩ := found
    rw [obtains_firstRequest_ok hfind hshort hresult] at h
    split at h
    · obtain ⟨k, -, later, -, rfl⟩ := h
      rfl
    · rw [h]
      rfl

/-- Headers that give the same mean the same. -/
theorem Insensitive.same_firstRequest (h : Insensitive left)
    (hfind : findHeaderEnd left = some headerEnd)
    (hshort : headerEnd + 4 ≤ maxHttpHeaderBytes + 1) {k : ℕ} (hk : k < maxRecvBytes) :
    firstRequest ((left.take headerEnd).drop k) (left.drop (headerEnd + 4)) =
      firstRequest (left.take headerEnd) (left.drop (headerEnd + 4)) := by
  have hchunk := h.chunk_le hfind
  obtain ⟨whole, hwhole⟩ := exists_obtains (left.drop 0)
  obtain ⟨part, hpart⟩ := exists_obtains (left.drop k)
  have hsame := h 0 maxRecvBytes_pos k hk whole part hwhole hpart
  have hdrop := @findHeaderEnd_drop left headerEnd hfind k (by omega)
  have hfirst := obtains_firstRequest hfind hshort hwhole
  have hsecond := obtains_firstRequest hdrop (by omega) hpart
  obtain ⟨htake, hbehind⟩ := @drop_parts left headerEnd k (by omega)
  rw [htake, hbehind, ← hsame] at hsecond
  cases hresult : firstRequest (left.take headerEnd) (left.drop (headerEnd + 4)) with
  | error e =>
    cases hother : firstRequest ((left.take headerEnd).drop k) (left.drop (headerEnd + 4)) with
    | error e' =>
      simp only [hresult] at hfirst
      simp only [hother] at hsecond
      rw [hfirst] at hsecond
      cases hsecond
      rfl
    | ok found =>
      simp only [hresult] at hfirst
      simp only [hother] at hsecond
      rw [hfirst] at hsecond
      cases hsecond
  | ok found =>
    cases hother : firstRequest ((left.take headerEnd).drop k) (left.drop (headerEnd + 4)) with
    | error e' =>
      simp only [hresult] at hfirst
      simp only [hother] at hsecond
      rw [hsecond] at hfirst
      cases hfirst
    | ok found' =>
      obtain ⟨request, rest⟩ := found
      obtain ⟨request', rest'⟩ := found'
      simp only [hresult] at hfirst
      simp only [hother] at hsecond
      rw [hfirst] at hsecond
      cases hsecond
      rw [firstRequest_rest hresult hother]

/-- A difference that the cut decides is seen without any loss. -/
theorem Insensitive.limit (h : Insensitive left) (hfind : findHeaderEnd left = some headerEnd) :
    headerEnd + 4 ≤ maxHttpHeaderBytes + 1 ∨
      maxHttpHeaderBytes + 2 * maxRecvBytes ≤ headerEnd + 4 := by
  by_contra hbetween
  have hchunk := h.chunk_le hfind
  have hlimit : 2 ≤ maxRecvBytes := by decide
  have hloss : ∃ k < maxRecvBytes, maxHttpHeaderBytes + 1 < headerEnd - k + 4 ∧
      headerEnd - k + 4 ≤ maxHttpHeaderBytes + maxRecvBytes := by
    by_cases hnear : headerEnd + 4 ≤ maxHttpHeaderBytes + maxRecvBytes
    · exact ⟨0, by omega, by omega, by omega⟩
    · exact ⟨headerEnd + 4 - (maxHttpHeaderBytes + maxRecvBytes), by omega, by omega, by omega⟩
  obtain ⟨k, hk, hlong, hshort⟩ := hloss
  obtain ⟨first, second, hfirst, hsecond, hne⟩ :=
    exists_two_obtains (@findHeaderEnd_drop left headerEnd hfind k (by omega)) hlong hshort
  exact hne (h k hk k hk first second hfirst hsecond)

/-- Behind a request that keeps the connection, nothing lost is missed. -/
theorem insensitive_rest (hfind : findHeaderEnd stream = some headerEnd)
    (hshort : headerEnd + 4 ≤ maxHttpHeaderBytes + 1) {request : HttpRequest} {rest : Bytes}
    (hresult : firstRequest (stream.take headerEnd) (stream.drop (headerEnd + 4)) =
      .ok (request, rest))
    (hkeep : requestWantsKeepAlive request = true)
    (h : ∀ first second, Obtains stream first → Obtains stream second → first = second) :
    Insensitive rest := by
  have hbehind (k : ℕ) (hk : k < maxRecvBytes) (later : List HttpRequest × Option Bytes)
      (hlater : Obtains (rest.drop k) later) :
      Obtains stream (request :: later.1, later.2) := by
    rw [obtains_firstRequest_ok hfind hshort hresult, if_pos hkeep]
    exact ⟨k, hk, later, hlater, rfl⟩
  intro k hk l hl first second hfirst hsecond
  have hsame := h _ _ (hbehind k hk first hfirst) (hbehind l hl second hsecond)
  cases first
  cases second
  cases hsame
  rfl

/-- What gives the same for every loss is settled. -/
theorem Insensitive.settled (h : Insensitive left) : Settled left := by
  induction hlength : left.length using Nat.strong_induction_on generalizing left with
  | _ size ih =>
    cases hfind : findHeaderEnd left with
    | none =>
      refine Settled.unterminated hfind ?_
      by_contra hbetween
      have hnone (n : ℕ) : findHeaderEnd (left.drop n) = none :=
        find_infix_eq_none hfind (List.drop_suffix n left).isInfix
      obtain ⟨whole, hwhole⟩ := exists_obtains (left.drop 0)
      obtain ⟨part, hpart⟩ := exists_obtains (left.drop (left.length - maxHttpHeaderBytes))
      have hsame := h 0 maxRecvBytes_pos _ (by omega) whole part hwhole hpart
      rw [obtains_unterminated (hnone _) hwhole, obtains_unterminated (hnone _) hpart,
        List.length_drop, List.length_drop, if_pos (by omega), if_neg (by omega)] at hsame
      have herror : requestReader.headersTooLong = closedEarly :=
        Option.some.inj (congrArg Prod.snd hsame)
      exact absurd herror (by decide)
    | some headerEnd =>
      cases h.limit hfind with
      | inr hlong => exact Settled.tooLong hfind hlong
      | inl hshort =>
        refine Settled.same hfind (h.chunk_le hfind) hshort
          (fun k hk => h.same_firstRequest hfind hshort hk) ?_
        intro request rest hresult hkeep
        obtain ⟨expected, -, hwhole, hrest, -⟩ := firstRequest_ok hfind hshort hresult
        have hshorter : rest.length < size := by
          rw [hrest, List.length_drop]
          omega
        exact ih rest.length hshorter (insensitive_rest hfind hshort hresult hkeep
          (h 0 maxRecvBytes_pos 0 maxRecvBytes_pos)) rfl

/-- Steady streams are exactly those that give the same for all cuts. -/
theorem steady_iff (stream : Bytes) :
    (∀ first second, Obtains stream first → Obtains stream second → first = second) ↔
      Steady stream := by
  unfold Steady
  cases hfind : findHeaderEnd stream with
  | none =>
    refine iff_of_true ?_ trivial
    intro first second hfirst hsecond
    rw [obtains_unterminated hfind hfirst, obtains_unterminated hfind hsecond]
  | some headerEnd =>
    dsimp only
    constructor
    · intro h
      by_cases hlong : maxHttpHeaderBytes + maxRecvBytes < headerEnd + 4
      · exact Or.inl hlong
      · have hshort : headerEnd + 4 ≤ maxHttpHeaderBytes + 1 := by
          by_contra hbetween
          obtain ⟨first, second, hfirst, hsecond, hne⟩ :=
            exists_two_obtains hfind (Nat.not_le.mp hbetween) (Nat.not_lt.mp hlong)
          exact hne (h first second hfirst hsecond)
        refine Or.inr ⟨hshort, ?_⟩
        intro request rest hresult hkeep
        exact (insensitive_rest hfind hshort hresult hkeep h).settled
    · intro h first second hfirst hsecond
      cases h with
      | inl hlong => rw [obtains_tooLong hfind hlong hfirst, obtains_tooLong hfind hlong hsecond]
      | inr hrest =>
        obtain ⟨hshort, hsettled⟩ := hrest
        cases hresult : firstRequest (stream.take headerEnd) (stream.drop (headerEnd + 4)) with
        | error e =>
          rw [obtains_firstRequest_error hfind hshort hresult hfirst,
            obtains_firstRequest_error hfind hshort hresult hsecond]
        | ok found =>
          obtain ⟨request, rest⟩ := found
          rw [obtains_firstRequest_ok hfind hshort hresult] at hfirst hsecond
          by_cases hkeep : requestWantsKeepAlive request = true
          · rw [if_pos hkeep] at hfirst hsecond
            obtain ⟨k, hk, later, hlater, rfl⟩ := hfirst
            obtain ⟨l, hl, other, hother, rfl⟩ := hsecond
            rw [(hsettled request rest hresult hkeep).insensitive k hk l hl later other hlater
              hother]
          · rw [if_neg hkeep] at hfirst hsecond
            rw [hfirst, hsecond]

/-- The loop of a connection obtains the same for all cuts of a stream exactly
when the stream is steady. -/
theorem segmentation_independent_iff (stream : Bytes) :
    (∀ chunks others, Cut maxRecvBytes stream chunks → Cut maxRecvBytes stream others →
      handleClientConnection (arrival chunks) = handleClientConnection (arrival others)) ↔
        Steady stream := by
  rw [← steady_iff]
  constructor
  · rintro h first second ⟨chunks, hcut, rfl⟩ ⟨others, hother, rfl⟩
    exact h chunks others hcut hother
  · intro h chunks others hcut hother
    exact h _ _ ⟨chunks, hcut, rfl⟩ ⟨others, hother, rfl⟩

def healthRequest : Bytes := ascii "GET /health HTTP/1.1\r\n\r\n"

/-- Two requests in one chunk are one request, in two chunks they are two. -/
theorem second_request_lost :
    ¬∀ stream chunks others,
      Cut maxRecvBytes stream chunks → Cut maxRecvBytes stream others →
        handleClientConnection (arrival chunks) = handleClientConnection (arrival others) := by
  intro h
  have hone : Cut maxRecvBytes (healthRequest ++ healthRequest) [healthRequest ++ healthRequest] :=
    ⟨List.flatten_singleton, by decide⟩
  have htwo : Cut maxRecvBytes (healthRequest ++ healthRequest) [healthRequest, healthRequest] :=
    ⟨rfl, by decide⟩
  have hsame := h _ _ _ hone htwo
  have hfirst : scan verdict [] [healthRequest ++ healthRequest] =
      some (.ok { method := ascii "GET", path := ascii "/health" }, []) := by decide +kernel
  have hkeep : requestWantsKeepAlive { method := ascii "GET", path := ascii "/health" } = true := by
    decide +kernel
  have hsecond : scan verdict [] [healthRequest, healthRequest] =
      some (.ok { method := ascii "GET", path := ascii "/health" }, [healthRequest]) := by
    decide +kernel
  have hthird : scan verdict [] [healthRequest] =
      some (.ok { method := ascii "GET", path := ascii "/health" }, []) := by decide +kernel
  have hnext : Cut maxRecvBytes healthRequest [healthRequest] :=
    ⟨List.flatten_singleton, by decide⟩
  rw [handle_arrival hone.nonempty, handle_arrival htwo.nonempty, hfirst, hsecond] at hsame
  simp only [if_pos hkeep] at hsame
  rw [handle_arrival hnext.nonempty, hthird] at hsame
  simp only [if_pos hkeep] at hsame
  have hlength := congrArg (fun obtained => obtained.1.length) hsame
  simp only [List.length_cons] at hlength
  omega

end Independence

end LayerInference.RequestSegmentation
