import Mathlib.Data.List.Infix

/-!
# Erasing a tag from a text

A tag is a word between two brackets that occur nowhere else in it. Erasing all
its occurrences from the left can join the two sides of one into a new word. A
bracketed word is in the erased text exactly when the text has it with copies of
the tag woven in between its letters. Nothing here belongs to one format.
-/

namespace LayerInference.TagErasure

variable {α : Type} {left right : α} {m m' text out y z : List α}

section Tags

/-- A word between two brackets. -/
structure IsTag (left right : α) (m : List α) : Prop where
  opens : ∃ inner, m = left :: inner ∧ left ∉ inner
  closes : ∃ inner, m = inner ++ [right] ∧ right ∉ inner

theorem IsTag.ne_nil (hm : IsTag left right m) : m ≠ [] := by
  obtain ⟨inner, rfl, -⟩ := hm.opens
  exact List.cons_ne_nil _ _

/-- Of two tags, neither is the beginning of the other. -/
theorem IsTag.eq_of_prefix (hm : IsTag left right m) (hm' : IsTag left right m') (h : m <+: m') :
    m = m' := by
  obtain ⟨inner, rfl, -⟩ := hm.closes
  obtain ⟨inner', rfl, hinner'⟩ := hm'.closes
  obtain ⟨rest, hrest⟩ := h
  rcases List.eq_nil_or_concat rest with rfl | ⟨rest, c, rfl⟩
  · rw [List.append_nil] at hrest
    exact hrest
  · rw [List.concat_eq_append, ← List.append_assoc] at hrest
    obtain ⟨heq, -⟩ := List.append_inj' hrest rfl
    refine absurd ?_ hinner'
    rw [← heq, List.append_assoc]
    exact List.mem_append_right inner List.mem_cons_self

/-- Two tags at the same place are the same. -/
theorem IsTag.eq_of_prefixes (hm : IsTag left right m) (hm' : IsTag left right m')
    (h : m <+: text) (h' : m' <+: text) : m = m' := by
  rcases List.prefix_or_prefix_of_prefix h h' with hle | hle
  · exact hm.eq_of_prefix hm' hle
  · exact (hm'.eq_of_prefix hm hle).symm

/-- A tag starts with its left bracket. -/
theorem IsTag.head_eq (hm : IsTag left right m) {b : α} {rest : List α} (h : m <+: b :: rest) :
    b = left := by
  obtain ⟨inner, rfl, -⟩ := hm.opens
  obtain ⟨tail, htail⟩ := h
  exact (List.cons.inj htail).1.symm

/-- A tag is not in text without its left bracket. -/
theorem IsTag.not_infix_of_not_mem (hm : IsTag left right m) (h : left ∉ text) : ¬m <:+: text := by
  obtain ⟨inner, rfl, -⟩ := hm.opens
  exact fun hinside => h (hinside.subset List.mem_cons_self)

/-- Another tag in front holds no part of a tag. -/
theorem IsTag.not_infix_append (hm : IsTag left right m) (hm' : IsTag left right m') (hne : m ≠ m')
    (h : ¬m <:+: text) : ¬m <:+: m' ++ text := by
  obtain ⟨inner, hm'eq, hinner⟩ := hm'.opens
  -- the left bracket of the tag can only be that of the other one
  have hbehind : ∀ tail, left ∉ tail → ¬m <:+: tail ++ text := by
    intro tail htail
    induction tail with
    | nil => exact h
    | cons b tail ih =>
      rw [List.cons_append, List.infix_cons_iff]
      rintro (hstart | hinfix)
      · exact htail (hm.head_eq hstart ▸ List.mem_cons_self)
      · exact ih (fun hmem => htail (List.mem_cons_of_mem b hmem)) hinfix
  rw [hm'eq, List.cons_append, List.infix_cons_iff]
  rintro (hstart | hinfix)
  · have hother : m' <+: left :: (inner ++ text) := ⟨text, by rw [hm'eq]; rfl⟩
    exact hne (hm.eq_of_prefixes hm' hstart hother)
  · exact hbehind inner hinner hinfix

/-- A tag that starts in front of a text and reaches into it. -/
theorem prefix_append_cases {front back : List α} (h : m <+: front ++ back) :
    m <+: front ∨ ∃ rest, rest ≠ [] ∧ m = front ++ rest ∧ rest <+: back := by
  rcases List.prefix_or_prefix_of_prefix h (List.prefix_append front back) with hm | ⟨rest, rfl⟩
  · exact Or.inl hm
  · by_cases hrest : rest = []
    · rw [hrest, List.append_nil]
      exact Or.inl (List.prefix_refl front)
    · exact Or.inr ⟨rest, hrest, rfl, (List.prefix_append_right_inj front).mp h⟩

/-- No tag reaches over a left bracket. -/
theorem IsTag.within_of_left (hm : IsTag left right m) {front back : List α} (hfront : front ≠ [])
    (h : m <+: front ++ left :: back) : m <+: front := by
  obtain ⟨inner, hinner, hbracket⟩ := hm.opens
  rcases prefix_append_cases h with hstart | ⟨rest, hrest, hsplit, hback⟩
  · exact hstart
  · cases front with
    | nil => exact absurd rfl hfront
    | cons b front =>
      cases rest with
      | nil => exact absurd rfl hrest
      | cons c rest =>
        obtain ⟨rfl, -⟩ := List.cons_prefix_cons.mp hback
        obtain ⟨-, htail⟩ := List.cons.inj (hinner.symm.trans hsplit)
        rw [htail] at hbracket
        exact absurd (List.mem_append_right front List.mem_cons_self) hbracket

/-- No tag reaches over a right bracket. -/
theorem IsTag.within_of_right (hm : IsTag left right m) {front back : List α}
    (hlast : front.getLast? = some right) (h : m <+: front ++ back) : m <+: front := by
  obtain ⟨inner, hinner, hbracket⟩ := hm.closes
  rcases prefix_append_cases h with hstart | ⟨rest, hrest, hsplit, -⟩
  · exact hstart
  · rcases List.eq_nil_or_concat rest with rfl | ⟨rest, c, rfl⟩
    · exact absurd rfl hrest
    · rw [hinner, List.concat_eq_append, ← List.append_assoc] at hsplit
      obtain ⟨heq, -⟩ := List.append_inj' hsplit rfl
      rw [heq] at hbracket
      exact absurd (List.mem_append_left rest (List.mem_of_getLast? hlast)) hbracket

end Tags

section Erasing

/-- Erase a word wherever it stands, from the left. -/
inductive Erases (m : List α) : List α → List α → Prop where
  | nil : Erases m [] []
  | hit {text out : List α} : Erases m text out → Erases m (m ++ text) out
  | keep {b : α} {text out : List α} : ¬m <+: b :: text → Erases m text out →
      Erases m (b :: text) (b :: out)

/-- There is only one way to erase. -/
theorem Erases.unique (hm : m ≠ []) {out' : List α} (h : Erases m text out)
    (h' : Erases m text out') : out = out' := by
  induction h generalizing out' with
  | nil =>
    generalize hnil : ([] : List α) = whole at h'
    cases h' with
    | nil => rfl
    | hit h' => exact absurd (List.append_eq_nil_iff.mp hnil.symm).1 hm
    | keep hnot h' => cases hnil
  | @hit text out h ih =>
    generalize hwhole : m ++ text = whole at h'
    cases h' with
    | nil => exact absurd (List.append_eq_nil_iff.mp hwhole).1 hm
    | hit h' =>
      rw [← List.append_cancel_left hwhole] at h'
      exact ih h'
    | keep hnot h' => exact absurd ⟨text, hwhole⟩ hnot
  | @keep b text out hnot h ih =>
    generalize hwhole : b :: text = whole at h'
    cases h' with
    | nil => cases hwhole
    | hit h' => exact absurd (hwhole ▸ List.prefix_append m _) hnot
    | keep hnot' h' =>
      obtain ⟨rfl, rfl⟩ := List.cons.inj hwhole
      rw [ih h']

/-- Erasing changes nothing in a text that does not have the word. -/
theorem erases_self (h : ¬m <:+: text) : Erases m text text := by
  induction text with
  | nil => exact .nil
  | cons b text ih =>
    rw [List.infix_cons_iff, not_or] at h
    exact .keep h.1 (ih h.2)

/-- Erasing works on both sides of a place over which the word does not reach. -/
theorem Erases.split {front back : List α}
    (hplace : ∀ part rest, front = part ++ rest → rest ≠ [] → m <+: rest ++ back → m <+: rest)
    (h : Erases m (front ++ back) out) :
    ∃ out₁ out₂, out = out₁ ++ out₂ ∧ Erases m front out₁ ∧ Erases m back out₂ := by
  generalize hwhole : front ++ back = whole at h
  induction h generalizing front with
  | nil =>
    obtain ⟨rfl, rfl⟩ := List.append_eq_nil_iff.mp hwhole
    exact ⟨[], [], rfl, .nil, .nil⟩
  | @hit text out h ih =>
    cases front with
    | nil =>
      rw [List.nil_append] at hwhole
      exact ⟨[], out, rfl, .nil, hwhole ▸ .hit h⟩
    | cons b front =>
      have hstart : m <+: b :: front := hplace [] (b :: front) rfl (List.cons_ne_nil _ _)
        (hwhole ▸ List.prefix_append m text)
      obtain ⟨rest, hrest⟩ := hstart
      have hback : rest ++ back = text := by
        rw [← hrest, List.append_assoc] at hwhole
        exact List.append_cancel_left hwhole
      obtain ⟨out₁, out₂, hout, hfirst, hsecond⟩ := ih (fun part tail hpart =>
        hplace (m ++ part) tail (by rw [← hrest, hpart, List.append_assoc])) hback
      exact ⟨out₁, out₂, hout, hrest ▸ .hit hfirst, hsecond⟩
  | @keep b text out hnot h ih =>
    cases front with
    | nil =>
      rw [List.nil_append] at hwhole
      exact ⟨[], b :: out, rfl, .nil, hwhole ▸ .keep hnot h⟩
    | cons c front =>
      obtain ⟨rfl, htext⟩ := List.cons.inj hwhole
      obtain ⟨out₁, out₂, hout, hfirst, hsecond⟩ := ih (fun part tail hpart =>
        hplace (c :: part) tail (by rw [hpart]; rfl)) htext
      refine ⟨c :: out₁, out₂, by rw [hout]; rfl, .keep (fun hstart => hnot ?_) hfirst, hsecond⟩
      exact hstart.trans (by rw [← htext]; exact List.prefix_append (c :: front) back)

end Erasing

section Weaving

/-- A word with copies of a tag between its letters. -/
inductive Woven (m : List α) : List α → List α → Prop where
  | single (b : α) : Woven m [b] [b]
  | cons (b : α) (n : ℕ) {y z : List α} : Woven m y z →
      Woven m (b :: y) (b :: ((List.replicate n m).flatten ++ z))

/-- What is in front of a byte that stays. -/
theorem Erases.skip {b : α} (h : Erases m text (b :: out)) :
    ∃ n rest, text = (List.replicate n m).flatten ++ b :: rest ∧ ¬m <+: b :: rest ∧
      Erases m rest out := by
  generalize hwhole : b :: out = whole at h
  induction h with
  | nil => cases hwhole
  | @hit text out' h ih =>
    obtain ⟨n, rest, rfl, hnot, hrest⟩ := ih hwhole
    refine ⟨n + 1, rest, ?_, hnot, hrest⟩
    rw [List.replicate_succ, List.flatten_cons, List.append_assoc]
  | @keep c text out' hnot h ih =>
    obtain ⟨rfl, rfl⟩ := List.cons.inj hwhole
    exact ⟨0, text, rfl, hnot, h⟩

/-- A later part of the erased text comes from a later part of the text. -/
theorem Erases.later {front : List α} (h : Erases m text (front ++ out)) :
    ∃ before rest, text = before ++ rest ∧ Erases m rest out := by
  induction front generalizing text with
  | nil => exact ⟨[], text, rfl, h⟩
  | cons b front ih =>
    obtain ⟨n, rest, rfl, -, hrest⟩ := h.skip
    obtain ⟨before, rest, rfl, hout⟩ := ih hrest
    exact ⟨(List.replicate n m).flatten ++ b :: before, rest, by simp, hout⟩

/-- The front of the erased text is woven into the text. -/
theorem Erases.woven {back : List α} (hy : y ≠ []) (h : Erases m text (y ++ back)) :
    ∃ n z rest, text = (List.replicate n m).flatten ++ (z ++ rest) ∧ Woven m y z ∧
      ¬m <+: z ++ rest := by
  induction y generalizing text with
  | nil => exact absurd rfl hy
  | cons b y ih =>
    obtain ⟨n, rest, rfl, hnot, hrest⟩ := h.skip
    cases y with
    | nil => exact ⟨n, [b], rest, rfl, .single b, hnot⟩
    | cons c y =>
      obtain ⟨n', z, rest, rfl, hwoven, -⟩ := ih (List.cons_ne_nil c y) hrest
      refine ⟨n, b :: ((List.replicate n' m).flatten ++ z), rest, ?_, .cons b n' hwoven, ?_⟩
      · rw [List.cons_append, List.append_assoc]
      · rwa [List.cons_append, List.append_assoc]

theorem Woven.head (h : Woven m y z) : ∃ b y' z', y = b :: y' ∧ z = b :: z' := by
  cases h with
  | single b => exact ⟨b, [], [], rfl, rfl⟩
  | cons b n h => exact ⟨b, _, _, rfl, rfl⟩

theorem Woven.getLast?_eq (h : Woven m y z) : z.getLast? = y.getLast? := by
  induction h with
  | single b => rfl
  | @cons b n y z h ih =>
    obtain ⟨c, y', z', rfl, rfl⟩ := h.head
    rw [← List.cons_append, List.getLast?_append_of_ne_nil _ (List.cons_ne_nil _ _), ih,
      List.getLast?_cons_cons]

/-- A copy of the tag starts with the left bracket. -/
theorem copies_cases (hm : IsTag left right m) (n : ℕ) :
    n = 0 ∨ ∃ rest, (List.replicate n m).flatten = left :: rest := by
  cases n with
  | zero => exact Or.inl rfl
  | succ n =>
    obtain ⟨inner, rfl, -⟩ := hm.opens
    exact Or.inr ⟨_, by rw [List.replicate_succ, List.flatten_cons, List.cons_append]⟩

/-- A beginning without a further left bracket has no copies in it. -/
theorem Woven.starts (hm : IsTag left right m) (h : Woven m y z) {r : List α} (hr : r <+: z)
    (hbracket : left ∉ r.tail) : r <+: y := by
  induction h generalizing r with
  | single b => exact hr
  | @cons b n y z h ih =>
    cases r with
    | nil => exact List.nil_prefix
    | cons c r =>
      obtain ⟨rfl, hrest⟩ := List.cons_prefix_cons.mp hr
      rw [List.cons_prefix_cons]
      refine ⟨rfl, ?_⟩
      rcases copies_cases hm n with rfl | ⟨rest, hcopies⟩
      · exact ih hrest fun hmem => hbracket (List.mem_of_mem_tail hmem)
      · rw [hcopies] at hrest
        cases r with
        | nil => exact List.nil_prefix
        | cons d r =>
          obtain ⟨rfl, -⟩ := List.cons_prefix_cons.mp hrest
          exact absurd List.mem_cons_self hbracket

/-- A woven text that starts with the whole word has no copies in it. -/
theorem Woven.eq_of_prefix (hm : IsTag left right m) (h : Woven m y z) (hy : y <+: z)
    (hbracket : left ∉ y.tail) : z = y := by
  induction h with
  | single b => rfl
  | @cons b n y z h ih =>
    obtain ⟨c, y', z', rfl, rfl⟩ := h.head
    have hrest := (List.cons_prefix_cons.mp hy).2
    rcases copies_cases hm n with rfl | ⟨rest, hcopies⟩
    · rw [List.replicate_zero, List.flatten_nil, List.nil_append] at hrest ⊢
      rw [ih hrest fun hmem => hbracket (List.mem_cons_of_mem c hmem)]
    · rw [hcopies] at hrest
      obtain ⟨rfl, -⟩ := List.cons_prefix_cons.mp hrest
      exact absurd List.mem_cons_self hbracket

theorem erases_copies (n : ℕ) (h : Erases m text out) :
    Erases m ((List.replicate n m).flatten ++ text) out := by
  induction n with
  | zero => exact h
  | succ n ih =>
    rw [List.replicate_succ, List.flatten_cons, List.append_assoc]
    exact .hit ih

/-- Erasing takes the copies away again. -/
theorem Woven.erases (hm : IsTag left right m) (h : Woven m y z) (hnone : ¬m <:+: y) :
    Erases m z y := by
  have hstart : ∀ {y z : List α}, Woven m y z → ¬m <:+: y → ¬m <+: z := by
    intro y z h hnone hz
    obtain ⟨inner, hinner, hnot⟩ := hm.opens
    exact hnone (h.starts hm hz (by rw [hinner]; exact hnot)).isInfix
  induction h with
  | single b => exact .keep (hstart (.single b) hnone) .nil
  | @cons b n y z h ih =>
    have htail : ¬m <:+: y := fun hinfix => hnone (List.infix_cons hinfix)
    exact .keep (hstart (.cons b n h) hnone) (erases_copies n (ih htail))

/-- Erasing takes the copies away again, also when the word is the tag itself
with copies in it. -/
theorem Woven.erases_of_whole (hm : IsTag left right m) (h : Woven m y z) (hne : z ≠ m)
    (hwhole : ∀ a c, y = a ++ (m ++ c) → a = [] ∧ c = []) : Erases m z y := by
  obtain ⟨inner, hinner, hbracket⟩ := hm.opens
  have hstart : ¬m <+: z := by
    intro hz
    have hy : m <+: y := h.starts hm hz (by rw [hinner]; exact hbracket)
    obtain ⟨c, rfl⟩ := hy
    obtain ⟨-, rfl⟩ := hwhole [] c rfl
    rw [List.append_nil] at h
    exact hne (h.eq_of_prefix hm hz (by rw [hinner]; exact hbracket))
  cases h with
  | single b => exact .keep hstart .nil
  | @cons b n y z h =>
    have htail : ¬m <:+: y := by
      rintro ⟨a, c, rfl⟩
      have hnil := (hwhole (b :: a) c (by simp)).1
      cases hnil
    exact .keep hstart (erases_copies n (h.erases hm htail))

/-- A bracketed word, in which the tag is at most the whole word, is in the erased
text exactly when the text has it with copies of the tag woven in. -/
theorem infix_erased_iff (hm : IsTag left right m) (herases : Erases m text out)
    (hopens : ∃ inner, y = left :: inner) (hcloses : ∃ inner, y = inner ++ [right])
    (hwhole : ∀ a c, y = a ++ (m ++ c) → a = [] ∧ c = []) :
    y <:+: out ↔ ∃ z, Woven m y z ∧ z ≠ m ∧ z <:+: text := by
  obtain ⟨rest, hy⟩ := hopens
  obtain ⟨init, hy'⟩ := hcloses
  constructor
  · rintro ⟨front, back, rfl⟩
    rw [List.append_assoc] at herases
    obtain ⟨before, tail, rfl, htail⟩ := herases.later
    obtain ⟨n, z, tail, rfl, hwoven, hstart⟩ := htail.woven (hy ▸ List.cons_ne_nil _ _)
    refine ⟨z, hwoven, fun heq => hstart (heq ▸ List.prefix_append m tail), ?_⟩
    exact ⟨before ++ (List.replicate n m).flatten, tail, by simp⟩
  · rintro ⟨z, hwoven, hne, front, back, rfl⟩
    obtain ⟨b, y', z', hyz, hz⟩ := hwoven.head
    obtain rfl : b = left := (List.cons.inj (hyz.symm.trans hy)).1
    have hlast : z.getLast? = some right := by
      rw [hwoven.getLast?_eq, hy', List.getLast?_concat]
    rw [List.append_assoc] at herases
    -- the brackets at the ends of the woven word stop every occurrence of the tag
    obtain ⟨out₁, out₂, rfl, -, hsecond⟩ := herases.split fun part tail _ htail hstart =>
      hm.within_of_left htail (by rw [hz] at hstart; exact hstart)
    obtain ⟨out₂, out₃, rfl, hthird, -⟩ := hsecond.split fun part tail hpart htail hstart =>
      hm.within_of_right (by
        rw [hpart, List.getLast?_append_of_ne_nil _ htail] at hlast
        exact hlast) hstart
    rw [hthird.unique hm.ne_nil (hwoven.erases_of_whole hm hne hwhole)]
    exact List.infix_append' _ _ _

/-- Copies of another tag in front hold no part of a tag. -/
theorem IsTag.not_infix_copies (hm : IsTag left right m) (hm' : IsTag left right m') (hne : m ≠ m')
    (n : ℕ) (h : ¬m <:+: z) : ¬m <:+: (List.replicate n m').flatten ++ z := by
  induction n with
  | zero => exact h
  | succ n ih =>
    rw [List.replicate_succ, List.flatten_cons, List.append_assoc]
    exact hm.not_infix_append hm' hne ih

/-- Another tag is not in a text whose left brackets are those of the copies. -/
theorem Woven.not_infix (hm : IsTag left right m) (hm' : IsTag left right m') (hne : m ≠ m')
    (h : Woven m' y z) (hy : left ∉ y) : ¬m <:+: z := by
  induction h with
  | single b => exact hm.not_infix_of_not_mem hy
  | @cons b n y z h ih =>
    have hrest := ih fun hmem => hy (List.mem_cons_of_mem b hmem)
    rw [List.infix_cons_iff]
    rintro (hstart | hinfix)
    · exact hy (hm.head_eq hstart ▸ List.mem_cons_self)
    · exact hm.not_infix_copies hm' hne n hrest hinfix

/-- In a tag with copies of another one, a third is at most the whole text. -/
theorem Woven.whole (hm : IsTag left right m) (hm' : IsTag left right m') (hne : m ≠ m')
    (hy : IsTag left right y) (h : Woven m' y z) (a c : List α) (hz : z = a ++ (m ++ c)) :
    a = [] ∧ c = [] := by
  obtain ⟨inner, hinner, hbracket⟩ := hm.opens
  obtain ⟨inner', hinner', hbracket'⟩ := hy.opens
  have hfirst : a = [] := by
    cases a with
    | nil => rfl
    | cons b a =>
      have htail : m <:+: z.tail := by
        rw [hz]
        exact List.infix_append' a m c
      exfalso
      cases h with
      | single d => exact hm.ne_nil (List.infix_nil.mp htail)
      | @cons d n y z h =>
        obtain ⟨-, rfl⟩ := List.cons.inj hinner'
        exact hm.not_infix_copies hm' hne n (h.not_infix hm hm' hne hbracket') htail
  subst hfirst
  have hstart : m <+: z := ⟨c, hz.symm⟩
  have hym : m = y := hm.eq_of_prefix hy (h.starts hm' hstart (by rw [hinner]; exact hbracket))
  have hzy := h.eq_of_prefix hm' (hym ▸ hstart) (by rw [hinner']; exact hbracket')
  rw [hzy, ← hym, List.nil_append] at hz
  exact ⟨rfl, List.self_eq_append_right.mp hz⟩

/-- A tag inside a tag is the whole tag. -/
theorem IsTag.whole (hm : IsTag left right m) (hy : IsTag left right y) (a c : List α)
    (h : y = a ++ (m ++ c)) : a = [] ∧ c = [] := by
  obtain ⟨inner, hinner, hbracket⟩ := hy.opens
  cases a with
  | nil =>
    rw [List.nil_append] at h
    have hsame : m = y := hm.eq_of_prefix hy ⟨c, h.symm⟩
    rw [hsame] at h
    exact ⟨rfl, List.self_eq_append_right.mp h⟩
  | cons b a =>
    obtain ⟨-, htail⟩ := List.cons.inj (hinner.symm.trans h)
    exact absurd (htail ▸ List.infix_append' a m c) (hm.not_infix_of_not_mem hbracket)

theorem Woven.ends (hy : IsTag left right y) (h : Woven m y z) :
    (∃ inner, z = left :: inner) ∧ ∃ inner, z = inner ++ [right] := by
  obtain ⟨inner, hinner, -⟩ := hy.opens
  obtain ⟨inner', hinner', -⟩ := hy.closes
  obtain ⟨b, y', z', hyb, hz⟩ := h.head
  refine ⟨⟨z', ?_⟩, List.getLast?_eq_some_iff.mp ?_⟩
  · rw [hz, (List.cons.inj (hyb.symm.trans hinner)).1]
  · rw [h.getLast?_eq, hinner', List.getLast?_concat]

/-- A tag is left after two erasings exactly when the text has it with copies of
the second tag woven in, and copies of the first tag woven into that. -/
theorem tag_erased_twice_iff {first second mid : List α} (hfirst : IsTag left right first)
    (hsecond : IsTag left right second) (hne : first ≠ second) (hy : IsTag left right y)
    (herase : Erases first text mid) (herase' : Erases second mid out) :
    y <:+: out ↔ ∃ z z', Woven second y z ∧ z ≠ second ∧ Woven first z z' ∧ z' ≠ first ∧
      z' <:+: text := by
  have hinner : ∀ {z : List α}, Woven second y z →
      (z <:+: mid ↔ ∃ z', Woven first z z' ∧ z' ≠ first ∧ z' <:+: text) := fun h =>
    infix_erased_iff hfirst herase (h.ends hy).1 (h.ends hy).2 (h.whole hfirst hsecond hne hy)
  obtain ⟨open', hopen, -⟩ := hy.opens
  obtain ⟨close', hclose, -⟩ := hy.closes
  rw [infix_erased_iff hsecond herase' ⟨open', hopen⟩ ⟨close', hclose⟩ (hsecond.whole hy)]
  constructor
  · rintro ⟨z, hwoven, hz, hmid⟩
    obtain ⟨z', hwoven', hz', htext⟩ := (hinner hwoven).mp hmid
    exact ⟨z, z', hwoven, hz, hwoven', hz', htext⟩
  · rintro ⟨z, z', hwoven, hz, hwoven', hz', htext⟩
    exact ⟨z, hwoven, hz, (hinner hwoven).mpr ⟨z', hwoven', hz', htext⟩⟩

end Weaving

end LayerInference.TagErasure
