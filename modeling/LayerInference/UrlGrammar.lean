import LayerInference.HttpTransfer

/-!
# The grammar of a stage URL

A URL is a fixed scheme, a host with an optional port, and an optional path.
The parser cuts it at the first slash and at the last colon before it, so the
cuts agree with the grammar on every text. Its port goes through a conversion
that skips white space, takes a sign and stops at the first byte that is no
digit; the texts that only this conversion accepts are all that separates the
parser from the grammar.
-/

namespace LayerInference.UrlGrammar

open ByteStrings TextStreams HttpTransfer

section Grammar

def scheme : Bytes := ascii "http://"

/-- A decimal number that can be a port. -/
structure PortText (digits : Bytes) (port : ℤ) : Prop where
  nonempty : digits ≠ []
  digit : ∀ b ∈ digits, isDigit b = true
  value : (digitsValue digits : ℤ) = port
  low : 1 ≤ port
  high : port ≤ 65535

/-- A host that is not empty and has no slash, and the port behind its last
colon, or the default port where there is no colon. -/
def HostPort (text host : Bytes) (port : ℤ) : Prop :=
  host ≠ [] ∧ 47 ∉ host ∧
    (text = host ∧ 58 ∉ host ∧ port = 80 ∨
      ∃ digits, text = host ++ 58 :: digits ∧ PortText digits port)

/-- What follows the host and the port: nothing, or a path with its slash. -/
def PathText (text path : Bytes) : Prop :=
  text = [] ∧ path = ascii "/" ∨ (∃ rest, text = 47 :: rest) ∧ path = text

/-- The form `http://HOST[:PORT][/REST]`, with the parts it denotes. -/
def IsUrl (url host : Bytes) (port : ℤ) (path : Bytes) : Prop :=
  ∃ hostPort rest, url = scheme ++ (hostPort ++ rest) ∧ HostPort hostPort host port ∧
    PathText rest path

/-- A port text that is no decimal number and converts to a port nevertheless. -/
structure LoosePort (text blanks sign digits more : Bytes) : Prop where
  parts : IntegerText text blanks sign digits more
  positive : sign ≠ [45]
  low : 1 ≤ digitsValue digits
  high : digitsValue digits ≤ 65535
  loose : blanks ≠ [] ∨ sign ≠ [] ∨ more ≠ []

/-- A URL of the grammar but for its port: the number there has white space or
a plus sign in front of it, or something behind it. -/
def LooseUrl (url : Bytes) : Prop :=
  ∃ host portText rest path blanks sign digits more,
    url = scheme ++ (host ++ 58 :: portText ++ rest) ∧ host ≠ [] ∧ 47 ∉ host ∧
      47 ∉ portText ∧ 58 ∉ portText ∧ PathText rest path ∧
        LoosePort portText blanks sign digits more

end Grammar

section Cuts

/-- Every text is cut at its first slash, if it has one. -/
theorem exists_cut (text : Bytes) : ∃ hostPort rest path,
    text = hostPort ++ rest ∧ 47 ∉ hostPort ∧ PathText rest path := by
  induction text with
  | nil => exact ⟨[], [], ascii "/", rfl, List.not_mem_nil, Or.inl ⟨rfl, rfl⟩⟩
  | cons b text ih =>
    by_cases hslash : b = 47
    · exact ⟨[], b :: text, b :: text, rfl, List.not_mem_nil, Or.inr ⟨⟨text, by rw [hslash]⟩, rfl⟩⟩
    · obtain ⟨hostPort, rest, path, htext, hnot, hpath⟩ := ih
      have hcons : 47 ∉ b :: hostPort := by
        intro hmem
        cases List.mem_cons.mp hmem with
        | inl hfirst => exact hslash hfirst.symm
        | inr hrest => exact hnot hrest
      exact ⟨b :: hostPort, rest, path, by rw [htext, List.cons_append], hcons, hpath⟩

/-- Every text is cut at its last colon, if it has one. -/
theorem exists_colon {text : Bytes} (h : 58 ∈ text) :
    ∃ host portText, text = host ++ 58 :: portText ∧ 58 ∉ portText := by
  induction text with
  | nil => cases h
  | cons b text ih =>
    by_cases hrest : 58 ∈ text
    · obtain ⟨host, portText, htext, hnot⟩ := ih hrest
      exact ⟨b :: host, portText, by rw [htext, List.cons_append], hnot⟩
    · cases List.mem_cons.mp h with
      | inl hfirst => exact ⟨[], text, by rw [hfirst, List.nil_append], hrest⟩
      | inr hmem => exact absurd hmem hrest

theorem find_slash (rest : Bytes) : find [47] (47 :: rest) = some 0 := by
  have hstarts : [47].isPrefixOf (47 :: rest) = true :=
    List.isPrefixOf_iff_prefix.mpr ⟨rest, rfl⟩
  rw [find, if_pos hstarts]

/-- The parser cuts a text where the grammar cuts it. -/
theorem find_cut {hostPort rest path : Bytes} (hnot : 47 ∉ hostPort) (hpath : PathText rest path) :
    find [47] (hostPort ++ rest) = none ∧ rest = [] ∧ path = ascii "/" ∨
      find [47] (hostPort ++ rest) = some hostPort.length ∧ path = rest ∧ rest ≠ [] := by
  cases hpath with
  | inl hnone =>
    refine Or.inl ⟨?_, hnone⟩
    rw [hnone.1, List.append_nil]
    exact find_eq_none_of_not_mem hnot
  | inr hsome =>
    obtain ⟨tail, htail⟩ := hsome.1
    refine Or.inr ⟨?_, hsome.2, by rw [htail]; exact List.cons_ne_nil _ _⟩
    rw [htail, find_append_of_not_mem hnot, find_slash, Option.map_some, Nat.zero_add]

/-- The cut of a text at its first slash is the only one. -/
theorem cut_unique {left left' rest rest' path path' : Bytes} (h : left ++ rest = left' ++ rest')
    (hleft : 47 ∉ left) (hleft' : 47 ∉ left') (hrest : PathText rest path)
    (hrest' : PathText rest' path') : left = left' ∧ path = path' := by
  have hcut := find_cut hleft hrest
  have hcut' := find_cut hleft' hrest'
  rw [h] at hcut
  cases hcut with
  | inl hnone =>
    cases hcut' with
    | inl hnone' =>
      rw [hnone.2.1, hnone'.2.1, List.append_nil, List.append_nil] at h
      exact ⟨h, by rw [hnone.2.2, hnone'.2.2]⟩
    | inr hsome' =>
      rw [hnone.1] at hsome'
      cases hsome'.1
  | inr hsome =>
    cases hcut' with
    | inl hnone' =>
      rw [hnone'.1] at hsome
      cases hsome.1
    | inr hsome' =>
      have hlength : left.length = left'.length := by
        have heq := hsome.1.symm.trans hsome'.1
        exact Option.some.inj heq
      obtain ⟨hsame, hrests⟩ := List.append_inj h hlength
      exact ⟨hsame, by rw [hsome.2.1, hsome'.2.1, hrests]⟩

/-- A slash in a host with a port stands in one of the two. -/
theorem slash_not_mem {host portText : Bytes} (hhost : 47 ∉ host) (hport : 47 ∉ portText) :
    47 ∉ host ++ 58 :: portText := by
  intro hmem
  cases List.mem_append.mp hmem with
  | inl hfirst => exact hhost hfirst
  | inr hrest =>
    cases List.mem_cons.mp hrest with
    | inl heq => cases heq
    | inr hlast => exact hport hlast

/-- The cut of a host part at its last colon is the only one. -/
theorem colon_unique {host host' portText portText' : Bytes}
    (h : host ++ 58 :: portText = host' ++ 58 :: portText') (hlast : 58 ∉ portText)
    (hlast' : 58 ∉ portText') : portText = portText' := by
  have hfind := rfind_append_cons hlast host
  rw [h, rfind_append_cons hlast' host'] at hfind
  have hlength : host.length = host'.length := (Option.some.inj hfind).symm
  exact (List.cons.inj (List.append_inj h hlength).2).2

end Cuts

section Parsing

/-- The parser takes a URL apart into these parts. -/
def Accepts (url host : Bytes) (port : ℤ) (path : Bytes) : Prop :=
  ∃ parsed, parseHttpUrl url = .ok parsed ∧ parsed.host = host ∧ parsed.port = port ∧
    parsed.path = path

/-- Only URLs of the scheme are taken. -/
theorem Accepts.scheme {url host path : Bytes} {port : ℤ} (h : Accepts url host port path) :
    ∃ text, url = scheme ++ text := by
  obtain ⟨parsed, hparsed, -⟩ := h
  unfold parseHttpUrl at hparsed
  split at hparsed
  · cases hparsed
  · next hscheme =>
    rw [Bool.not_eq_false] at hscheme
    obtain ⟨text, htext⟩ := List.isPrefixOf_iff_prefix.mp hscheme
    exact ⟨text, htext.symm⟩

theorem drop_scheme (text : Bytes) : (scheme ++ text).drop 7 = text := by
  have hlength : scheme.length = 7 := by decide +kernel
  rw [← hlength, List.drop_left]

theorem drop_colon (host portText : Bytes) :
    (host ++ 58 :: portText).drop (host.length + 1) = portText := by
  have hsplit : host ++ 58 :: portText = (host ++ [58]) ++ portText := by
    rw [List.append_assoc, List.singleton_append]
  rw [hsplit, List.drop_left' (by rw [List.length_append, List.length_singleton])]

theorem scheme_starts (text : Bytes) : (ascii "http://").isPrefixOf (scheme ++ text) = true :=
  List.isPrefixOf_iff_prefix.mpr ⟨text, rfl⟩

/-- The parts that the cuts yield pass the checks and are returned. -/
def Passes (host₀ : Bytes) (port₀ : ℤ) (path₀ host : Bytes) (port : ℤ) (path : Bytes) : Prop :=
  host₀ ≠ [] ∧ 1 ≤ port₀ ∧ port₀ ≤ 65535 ∧ host₀ = host ∧ port₀ = port ∧ path₀ = path

/-- The checks behind the cuts: the host is not empty and the port is in range. -/
theorem checked_iff (host₀ : Bytes) (port₀ : ℤ) (path₀ e e' host : Bytes) (port : ℤ)
    (path : Bytes) :
    (∃ parsed : ParsedUrl,
      (if hhost : host₀ = [] then Except.error e
        else if hport : port₀ ≤ 0 ∨ port₀ > 65535 then Except.error e'
        else Except.ok
          { host := host₀
            port := port₀
            path := if path₀ = [] then ascii "/" else path₀
            host_ne := hhost
            port_pos := Int.not_le.mp (not_or.mp hport).1
            port_le := Int.not_lt.mp (not_or.mp hport).2
            path_ne := pathOrRoot_ne path₀ }) = Except.ok parsed ∧
        parsed.host = host ∧ parsed.port = port ∧ parsed.path = path) ↔
      Passes host₀ port₀ (if path₀ = [] then ascii "/" else path₀) host port path := by
  by_cases hhost : host₀ = []
  · constructor
    · rintro ⟨parsed, hparsed, -⟩
      rw [dif_pos hhost] at hparsed
      cases hparsed
    · exact fun h => absurd hhost h.1
  · by_cases hport : port₀ ≤ 0 ∨ port₀ > 65535
    · constructor
      · rintro ⟨parsed, hparsed, -⟩
        rw [dif_neg hhost, dif_pos hport] at hparsed
        cases hparsed
      · rintro ⟨-, hlow, hhigh, -⟩
        omega
    · rw [dif_neg hhost, dif_neg hport]
      constructor
      · rintro ⟨parsed, hparsed, hparts⟩
        cases hparsed
        exact ⟨hhost, by omega, by omega, hparts⟩
      · rintro ⟨-, -, -, hparts⟩
        exact ⟨_, rfl, hparts⟩

variable {hostPort rest path₀ : Bytes}

/-- A host part without a colon is the host, at the default port. -/
theorem accepts_plain (hnot : 47 ∉ hostPort) (hpath : PathText rest path₀) (hcolon : 58 ∉ hostPort)
    (host : Bytes) (port : ℤ) (path : Bytes) :
    Accepts (scheme ++ (hostPort ++ rest)) host port path ↔
      Passes hostPort 80 path₀ host port path := by
  unfold Accepts parseHttpUrl
  rw [scheme_starts, drop_scheme, if_neg (by exact Bool.noConfusion)]
  cases find_cut hnot hpath with
  | inl hnone =>
    obtain ⟨hfind, hempty, hroot⟩ := hnone
    rw [hempty, List.append_nil] at hfind ⊢
    simp only [hfind, rfind_eq_none hcolon]
    rw [checked_iff, ite_self, hroot]
  | inr hsome =>
    obtain ⟨hfind, hrest, hne⟩ := hsome
    simp only [hfind, List.take_left, List.drop_left, rfind_eq_none hcolon]
    rw [checked_iff, if_neg hne, hrest]

variable {host₀ portText : Bytes}

/-- The text behind the last colon is converted to the port. -/
theorem accepts_port (hnot : 47 ∉ host₀ ++ 58 :: portText) (hpath : PathText rest path₀)
    (hcolon : 58 ∉ portText) {port₀ : ℤ} (hread : stoi portText = some port₀)
    (host : Bytes) (port : ℤ) (path : Bytes) :
    Accepts (scheme ++ (host₀ ++ 58 :: portText ++ rest)) host port path ↔
      Passes host₀ port₀ path₀ host port path := by
  have hport := drop_colon host₀ portText
  unfold Accepts parseHttpUrl
  rw [scheme_starts, drop_scheme, if_neg (by exact Bool.noConfusion)]
  cases find_cut hnot hpath with
  | inl hnone =>
    obtain ⟨hfind, hempty, hroot⟩ := hnone
    rw [hempty, List.append_nil] at hfind ⊢
    simp only [hfind, rfind_append_cons hcolon, hport, hread, List.take_left]
    rw [checked_iff, ite_self, hroot]
  | inr hsome =>
    obtain ⟨hfind, hrest, hne⟩ := hsome
    simp only [hfind, List.take_left, List.drop_left, rfind_append_cons hcolon, hport, hread]
    rw [checked_iff, if_neg hne, hrest]

/-- A port text that does not convert is refused. -/
theorem not_accepts_port (hnot : 47 ∉ host₀ ++ 58 :: portText) (hpath : PathText rest path₀)
    (hcolon : 58 ∉ portText) (hread : stoi portText = none) (host : Bytes) (port : ℤ)
    (path : Bytes) :
    ¬Accepts (scheme ++ (host₀ ++ 58 :: portText ++ rest)) host port path := by
  have hport := drop_colon host₀ portText
  rintro ⟨parsed, hparsed, -⟩
  unfold parseHttpUrl at hparsed
  rw [scheme_starts, drop_scheme, if_neg (by exact Bool.noConfusion)] at hparsed
  cases find_cut hnot hpath with
  | inl hnone =>
    obtain ⟨hfind, hempty, -⟩ := hnone
    rw [hempty, List.append_nil] at hfind hparsed
    simp only [hfind, rfind_append_cons hcolon, hport, hread] at hparsed
    cases hparsed
  | inr hsome =>
    simp only [hsome.1, List.take_left, rfind_append_cons hcolon, hport, hread] at hparsed
    cases hparsed

end Parsing

section Agreement

variable {url host path : Bytes} {port : ℤ}

/-- A decimal number converts to itself. -/
theorem PortText.stoi_eq {digits : Bytes} (h : PortText digits port) :
    stoi digits = some port := by
  have hparts : IntegerText digits [] [] digits [] := by
    constructor
    · rw [List.append_nil, List.nil_append, List.nil_append]
    · exact fun b hb => absurd hb List.not_mem_nil
    · exact Or.inl rfl
    · exact h.nonempty
    · exact h.digit
    · exact fun b hb => by cases hb
  have hvalue : signedValue [] digits = port := by
    rw [signedValue, if_neg (List.cons_ne_nil _ _).symm]
    exact h.value
  have hlow := h.low
  have hhigh := h.high
  rw [hparts.stoi_eq, hvalue, if_pos (by omega)]

theorem PortText.not_mem {digits : Bytes} (h : PortText digits port) {b : UInt8}
    (hb : isDigit b = false) : b ∉ digits := by
  intro hmem
  rw [h.digit b hmem] at hb
  cases hb

/-- The parser takes every URL of the grammar, and into the parts it denotes. -/
theorem IsUrl.accepts (h : IsUrl url host port path) : Accepts url host port path := by
  obtain ⟨hostPort, rest, rfl, ⟨hhost, hslash, hform⟩, hpath⟩ := h
  cases hform with
  | inl hplain =>
    obtain ⟨rfl, hcolon, rfl⟩ := hplain
    rw [accepts_plain hslash hpath hcolon]
    exact ⟨hhost, by decide, by decide, rfl, rfl, rfl⟩
  | inr hcolon =>
    obtain ⟨digits, rfl, hdigits⟩ := hcolon
    have hnot := slash_not_mem hslash (hdigits.not_mem rfl)
    rw [accepts_port hnot hpath (hdigits.not_mem rfl) hdigits.stoi_eq]
    exact ⟨hhost, hdigits.low, hdigits.high, rfl, rfl, rfl⟩

/-- A port text that converts to a port is decimal, or loose. -/
theorem portText_or_loose {text : Bytes} (hread : stoi text = some port) (hlow : 1 ≤ port)
    (hhigh : port ≤ 65535) :
    PortText text port ∨ ∃ blanks sign digits more, LoosePort text blanks sign digits more := by
  obtain ⟨blanks, sign, digits, more, hparts, hvalue, -⟩ := stoi_eq_some_iff.mp hread
  have hsign : sign ≠ [45] := by
    intro hminus
    rw [signedValue, if_pos hminus] at hvalue
    omega
  rw [signedValue, if_neg hsign] at hvalue
  by_cases hloose : blanks ≠ [] ∨ sign ≠ [] ∨ more ≠ []
  · exact Or.inr ⟨blanks, sign, digits, more, hparts, hsign, by omega, by omega, hloose⟩
  · obtain ⟨hblanks, hrest⟩ := not_or.mp hloose
    obtain ⟨hsign', hmore⟩ := not_or.mp hrest
    have htext : text = digits := by
      rw [hparts.parts, not_not.mp hblanks, not_not.mp hsign', not_not.mp hmore,
        List.append_nil, List.nil_append, List.nil_append]
    rw [htext]
    exact Or.inl ⟨hparts.nonempty, hparts.digit, hvalue, hlow, hhigh⟩

/-- What the parser takes is of the grammar, or has a loose port. -/
theorem Accepts.isUrl_or_loose (h : Accepts url host port path) :
    IsUrl url host port path ∨ LooseUrl url := by
  obtain ⟨text, rfl⟩ := h.scheme
  obtain ⟨hostPort, rest, path₀, rfl, hslash, hpath⟩ := exists_cut text
  by_cases hcolon : 58 ∈ hostPort
  · obtain ⟨host₀, portText, rfl, hlast⟩ := exists_colon hcolon
    have hhost : 47 ∉ host₀ := fun hmem => hslash (List.mem_append_left _ hmem)
    have hport : 47 ∉ portText := fun hmem =>
      hslash (List.mem_append_right _ (List.mem_cons_of_mem _ hmem))
    cases hread : stoi portText with
    | none => exact absurd h (not_accepts_port hslash hpath hlast hread host port path)
    | some port₀ =>
      obtain ⟨hne, hlow, hhigh, rfl, rfl, rfl⟩ :=
        (accepts_port hslash hpath hlast hread host port path).mp h
      cases portText_or_loose hread hlow hhigh with
      | inl hdigits =>
        exact Or.inl ⟨_, rest, rfl, ⟨hne, hhost, Or.inr ⟨portText, rfl, hdigits⟩⟩, hpath⟩
      | inr hloose =>
        obtain ⟨blanks, sign, digits, more, hloose⟩ := hloose
        exact Or.inr ⟨host₀, portText, rest, path₀, blanks, sign, digits, more, rfl, hne, hhost,
          hport, hlast, hpath, hloose⟩
  · obtain ⟨hne, -, -, rfl, rfl, rfl⟩ := (accepts_plain hslash hpath hcolon host port path).mp h
    exact Or.inl ⟨hostPort, rest, rfl, ⟨hne, hslash, Or.inl ⟨rfl, hcolon, rfl⟩⟩, hpath⟩

/-- A loose port is converted nevertheless. -/
theorem LoosePort.stoi_eq {text blanks sign digits more : Bytes}
    (h : LoosePort text blanks sign digits more) :
    stoi text = some (digitsValue digits : ℤ) := by
  have hvalue : signedValue sign digits = digitsValue digits := by
    rw [signedValue, if_neg h.positive]
  have hlow := h.low
  have hhigh := h.high
  rw [h.parts.stoi_eq, hvalue, if_pos (by omega)]

/-- A loose port holds a byte that is no digit. -/
theorem LoosePort.not_digits {text blanks sign digits more : Bytes}
    (h : LoosePort text blanks sign digits more) : ∃ b ∈ text, isDigit b = false := by
  rw [h.parts.parts]
  rcases h.loose with hblanks | hsign | hmore
  · obtain ⟨b, rest, hcons⟩ := List.exists_cons_of_ne_nil hblanks
    have hmem : b ∈ blanks := hcons ▸ List.mem_cons_self
    refine ⟨b, List.mem_append_left _ hmem, ?_⟩
    by_contra hdigit
    have hspace := not_isSpace_of_isDigit (Bool.not_eq_false _ ▸ hdigit)
    rw [h.parts.blank b hmem] at hspace
    cases hspace
  · have hplus : sign = [43] := by
      rcases h.parts.signed with hnone | hplus | hminus
      · exact absurd hnone hsign
      · exact hplus
      · exact absurd hminus h.positive
    refine ⟨43, List.mem_append_right _ (List.mem_append_left _ ?_), rfl⟩
    rw [hplus]
    exact List.mem_singleton_self _
  · obtain ⟨b, rest, hcons⟩ := List.exists_cons_of_ne_nil hmore
    refine ⟨b, ?_, h.parts.ends b (hcons ▸ rfl)⟩
    have hmem : b ∈ more := hcons ▸ List.mem_cons_self
    exact List.mem_append_right _ (List.mem_append_right _ (List.mem_append_right _ hmem))

/-- A URL of the grammar has no loose port. -/
theorem IsUrl.not_loose (h : IsUrl url host port path) : ¬LooseUrl url := by
  rintro ⟨host', portText, rest', path', blanks, sign, digits', more, hloose, -, hhost', hport',
    hlast', hpath', hparts⟩
  obtain ⟨hostPort, rest, hurl, ⟨-, hslash, hform⟩, hpath⟩ := h
  have htexts : hostPort ++ rest = host' ++ 58 :: portText ++ rest' :=
    List.append_cancel_left (hurl.symm.trans hloose)
  have hnot' := slash_not_mem hhost' hport'
  cases hform with
  | inl hplain =>
    obtain ⟨rfl, hcolon, -⟩ := hplain
    obtain ⟨hsame, -⟩ := cut_unique htexts hslash hnot' hpath hpath'
    exact hcolon (hsame ▸ List.mem_append_right _ List.mem_cons_self)
  | inr hdecimal =>
    obtain ⟨digits, rfl, hdigits⟩ := hdecimal
    have hnot := slash_not_mem hslash (hdigits.not_mem rfl)
    obtain ⟨hsame, -⟩ := cut_unique htexts hnot hnot' hpath hpath'
    have hports := colon_unique hsame (hdigits.not_mem rfl) hlast'
    obtain ⟨b, hmem, hb⟩ := hparts.not_digits
    exact hdigits.not_mem hb (hports ▸ hmem)

/-- A URL with a loose port is taken. -/
theorem LooseUrl.accepts (h : LooseUrl url) : ∃ host port path, Accepts url host port path := by
  obtain ⟨host, portText, rest, path, blanks, sign, digits, more, rfl, hne, hhost, hport, hlast,
    hpath, hparts⟩ := h
  refine ⟨host, digitsValue digits, path, ?_⟩
  have hlow := hparts.low
  have hhigh := hparts.high
  rw [accepts_port (slash_not_mem hhost hport) hpath hlast hparts.stoi_eq]
  exact ⟨hne, by omega, by omega, rfl, rfl, rfl⟩

/-- The parser and the grammar take the same parts out of a URL. -/
def Exact (url : Bytes) : Prop :=
  ∀ host port path, Accepts url host port path ↔ IsUrl url host port path

theorem LooseUrl.not_exact (h : LooseUrl url) : ¬Exact url := by
  intro hexact
  obtain ⟨host, port, path, haccepts⟩ := h.accepts
  exact ((hexact host port path).mp haccepts).not_loose h

/-- The parser follows its grammar on every text but the URLs with a loose port. -/
theorem exact_iff (url : Bytes) : Exact url ↔ ¬LooseUrl url := by
  constructor
  · exact fun hexact hloose => hloose.not_exact hexact
  · intro hstrict host port path
    constructor
    · intro h
      cases h.isUrl_or_loose with
      | inl hurl => exact hurl
      | inr hloose => exact absurd hloose hstrict
    · exact fun h => h.accepts

/-- The port `80x` is taken for 80: what follows the digits is not looked at. -/
theorem not_exact_trailing : ¬Exact (ascii "http://a:80x") := by
  have hparts : IntegerText (ascii "80x") [] [] (ascii "80") (ascii "x") := by
    constructor
    · rfl
    · exact fun b hb => absurd hb List.not_mem_nil
    · exact Or.inl rfl
    · exact List.cons_ne_nil _ _
    · decide +kernel
    · decide +kernel
  have hloose : LoosePort (ascii "80x") [] [] (ascii "80") (ascii "x") :=
    ⟨hparts, by decide +kernel, by decide +kernel, by decide +kernel, by decide +kernel⟩
  exact LooseUrl.not_exact ⟨ascii "a", ascii "80x", [], ascii "/", [], [], ascii "80", ascii "x",
    rfl, List.cons_ne_nil _ _, by decide +kernel, by decide +kernel, by decide +kernel, Or.inl ⟨rfl, rfl⟩, hloose⟩

end Agreement

end LayerInference.UrlGrammar
