import LayerInference.StopMarkers
import LayerInference.TagErasure

/-!
# Cleaning a generated text

The gateway cuts the text at the first role marker, erases the sentence markers
and trims what is left. An erased marker can join its two sides into a new
marker, which stays. The cleaned text is free of markers, trimmed and unchanged
by a second cleaning exactly when no control marker in front of the first role
marker is interrupted by whole sentence markers.
-/

namespace LayerInference.TextCleanup

open ByteStrings TextStreams GenerationLoop StopMarkers TagErasure

/-- The markers at which the text is cut. -/
def roleMarkers : List Bytes := [ascii "<|user|>", ascii "<|system|>", ascii "<|assistant|>"]

/-- All markers are bracketed by `<` and `>`. -/
theorem isTag_of_mem {marker : Bytes} (h : marker ∈ controlMarkers) : IsTag 60 62 marker := by
  have hall : ∀ marker ∈ controlMarkers, marker = 60 :: marker.tail ∧ 60 ∉ marker.tail ∧
      marker = marker.dropLast ++ [62] ∧ 62 ∉ marker.dropLast := by decide
  obtain ⟨hopens, hnone, hcloses, hnone'⟩ := hall marker h
  exact ⟨⟨marker.tail, hopens, hnone⟩, ⟨marker.dropLast, hcloses, hnone'⟩⟩

theorem mem_controlMarkers {role : Bytes} (h : role ∈ roleMarkers) : role ∈ controlMarkers := by
  have hall : ∀ role ∈ roleMarkers, role ∈ controlMarkers := by decide
  exact hall role h

section Searches

variable {marker text : Bytes}

/-- The marker stands at the place that is found, and not in front of it. -/
theorem find_spec {pos : ℕ} (h : find marker text = some pos) (hne : marker ≠ []) :
    marker <+: text.drop pos ∧ ¬marker <:+: text.take pos := by
  induction text generalizing pos with
  | nil =>
    cases marker with
    | nil => exact absurd rfl hne
    | cons b marker => cases h
  | cons b text ih =>
    rw [find] at h
    split at h
    · next hstarts =>
      rw [← Option.some.inj h]
      refine ⟨List.isPrefixOf_iff_prefix.mp hstarts, fun hinfix => hne ?_⟩
      exact List.infix_nil.mp hinfix
    · next hstarts =>
      obtain ⟨before, hbefore, rfl⟩ := Option.map_eq_some_iff.mp h
      obtain ⟨hfound, hnone⟩ := ih hbefore
      refine ⟨hfound, fun hinfix => ?_⟩
      rw [List.take_succ_cons, List.infix_cons_iff] at hinfix
      rcases hinfix with hstart | hinfix
      · refine hstarts (List.isPrefixOf_iff_prefix.mpr (hstart.trans ?_))
        exact List.prefix_append_right_inj [b] |>.mpr (List.take_prefix before text)
      · exact hnone hinfix

theorem find_eq_none (h : find marker text = none) : ¬marker <:+: text := by
  rw [← find_isSome_iff, h]
  exact Bool.false_ne_true

/-- Erasing goes on behind the first occurrence. -/
theorem erases_of_find {pos : ℕ} {out : Bytes} (h : find marker text = some pos)
    (hout : Erases marker (text.drop (pos + marker.length)) out) :
    Erases marker text (text.take pos ++ out) := by
  induction text generalizing pos with
  | nil =>
    cases marker with
    | nil =>
      rw [List.drop_nil] at hout
      rw [List.take_nil]
      exact hout
    | cons b marker => cases h
  | cons b text ih =>
    rw [find] at h
    split at h
    · next hstarts =>
      rw [← Option.some.inj h, Nat.zero_add] at hout
      rw [← Option.some.inj h]
      obtain ⟨rest, hrest⟩ := List.isPrefixOf_iff_prefix.mp hstarts
      rw [← hrest, List.drop_left] at hout
      exact hrest ▸ .hit hout
    · next hstarts =>
      obtain ⟨before, hbefore, rfl⟩ := Option.map_eq_some_iff.mp h
      rw [Nat.add_right_comm, List.drop_succ_cons] at hout
      refine .keep (fun hstart => hstarts (List.isPrefixOf_iff_prefix.mpr hstart)) ?_
      exact ih hbefore hout

/-- The loop of the source erases as the relation says. -/
theorem eraseLoop_erases (hne : marker ≠ []) (fuel : ℕ) {text : Bytes}
    (hfuel : text.length ≤ fuel) : Erases marker text (eraseLoop marker fuel text) := by
  induction fuel generalizing text with
  | zero =>
    rw [List.eq_nil_of_length_eq_zero (Nat.le_zero.mp hfuel)]
    exact .nil
  | succ fuel ih =>
    rw [eraseLoop]
    cases hfind : find marker text with
    | none => exact erases_self (find_eq_none hfind)
    | some pos =>
      refine erases_of_find hfind (ih ?_)
      have hpos := List.length_pos_iff.mpr hne
      have hle := find_le hfind
      rw [List.length_drop]
      omega

theorem eraseMarker_erases (hne : marker ≠ []) (text : Bytes) :
    Erases marker text (eraseMarker text marker) := eraseLoop_erases hne text.length (le_refl _)

/-- What a cut leaves, and what it takes away. -/
theorem cutAtMarker_spec (hne : marker ≠ []) (text : Bytes) :
    ∃ rest, text = cutAtMarker text marker ++ rest ∧ (rest = [] ∨ marker <+: rest) ∧
      ¬marker <:+: cutAtMarker text marker := by
  unfold cutAtMarker
  cases hfind : find marker text with
  | none => exact ⟨[], (List.append_nil text).symm, Or.inl rfl, find_eq_none hfind⟩
  | some pos =>
    obtain ⟨hfound, hnone⟩ := find_spec hfind hne
    exact ⟨text.drop pos, (List.take_append_drop pos text).symm, Or.inr hfound, hnone⟩

end Searches

section Cutting

/-- All cuts together leave the text in front of the first role marker. -/
theorem cuts_spec (markers : List Bytes) (hne : ∀ marker ∈ markers, marker ≠ []) (text : Bytes) :
    ∃ rest, text = markers.foldl cutAtMarker text ++ rest ∧
      (rest = [] ∨ ∃ marker ∈ markers, marker <+: rest) ∧
      ∀ marker ∈ markers, ¬marker <:+: markers.foldl cutAtMarker text := by
  induction markers generalizing text with
  | nil =>
    exact ⟨[], (List.append_nil text).symm, Or.inl rfl, fun m hm => absurd hm List.not_mem_nil⟩
  | cons marker markers ih =>
    obtain ⟨rest, hsplit, hrest, hnone⟩ := cutAtMarker_spec (hne marker List.mem_cons_self) text
    obtain ⟨rest', hsplit', hrest', hnone'⟩ :=
      ih (fun m hm => hne m (List.mem_cons_of_mem marker hm)) (cutAtMarker text marker)
    rw [List.foldl_cons]
    refine ⟨rest' ++ rest, ?_, ?_, fun m hm => ?_⟩
    · rw [← List.append_assoc, ← hsplit']
      exact hsplit
    · rcases hrest' with rfl | ⟨m, hm, hstart⟩
      · exact hrest.imp id fun hstart => ⟨marker, List.mem_cons_self, hstart⟩
      · exact Or.inr ⟨m, List.mem_cons_of_mem marker hm, hstart.trans (List.prefix_append rest' rest)⟩
    · rcases List.mem_cons.mp hm with rfl | hm
      · intro hinside
        refine hnone (hinside.trans ⟨[], rest', ?_⟩)
        rw [List.nil_append]
        exact hsplit'.symm
      · exact hnone' m hm

/-- The text in front of the first role marker. -/
def cutText (text : Bytes) : Bytes := roleMarkers.foldl cutAtMarker text

theorem roleMarkers_ne_nil : ∀ marker ∈ roleMarkers, marker ≠ [] := by decide

/-- A word with a right bracket at its end is in front of the first role marker
when no role marker is in the text up to its end. -/
theorem infix_cutText_iff {word : Bytes} (hlast : word.getLast? = some 62) (text : Bytes) :
    word <:+: cutText text ↔ ∃ front back, text = front ++ (word ++ back) ∧
      ∀ role ∈ roleMarkers, ¬role <:+: front ++ word := by
  obtain ⟨rest, hsplit, hrest, hnone⟩ := cuts_spec roleMarkers roleMarkers_ne_nil text
  constructor
  · rintro ⟨front, back, hcut⟩
    refine ⟨front, back ++ rest, ?_, fun role hrole hinside => hnone role hrole ?_⟩
    · rw [hsplit]
      change cutText text ++ rest = _
      rw [← hcut, List.append_assoc, List.append_assoc]
    · have hword : front ++ word <:+: cutText text := by
        rw [← hcut]
        exact (List.prefix_append (front ++ word) back).isInfix
      exact hinside.trans hword
  · rintro ⟨front, back, htext, hfree⟩
    have hwhole : cutText text ++ rest = (front ++ word) ++ back := by
      rw [List.append_assoc, ← htext]
      exact hsplit.symm
    rcases List.append_eq_append_iff.mp hwhole with ⟨tail, hword, hback⟩ | ⟨tail, hcut, -⟩
    · -- the word would end inside the role marker
      by_cases htail : tail = []
      · rw [htail, List.append_nil] at hword
        rw [← hword]
        exact (List.suffix_append front word).isInfix
      rcases hrest with rfl | ⟨role, hrole, hstart⟩
      · exact absurd (List.append_eq_nil_iff.mp hback.symm).1 htail
      · have htag := isTag_of_mem (mem_controlMarkers hrole)
        have hlast' : tail.getLast? = some 62 := by
          have hends : (front ++ word).getLast? = some 62 := by
            rw [List.getLast?_append, hlast]
            rfl
          rw [hword, List.getLast?_append_of_ne_nil _ htail] at hends
          exact hends
        have hwithin := htag.within_of_right hlast' (hback ▸ hstart)
        refine absurd ?_ (hfree role hrole)
        rw [hword]
        exact hwithin.isInfix.trans (List.suffix_append _ tail).isInfix
    · rw [hcut]
      exact ⟨front, tail, rfl⟩

end Cutting

section Trimming

/-- A word without white space is not touched by trimming. -/
theorem infix_of_append_space {p : UInt8 → Bool} {word front text : Bytes} (hne : word ≠ [])
    (hword : ∀ b ∈ word, p b = false) (hfront : ∀ b ∈ front, p b = true)
    (h : word <:+: front ++ text) : word <:+: text := by
  induction front with
  | nil => exact h
  | cons b front ih =>
    rw [List.cons_append, List.infix_cons_iff] at h
    rcases h with hstart | hinfix
    · cases word with
      | nil => exact absurd rfl hne
      | cons c word =>
        obtain ⟨rfl, -⟩ := List.cons_prefix_cons.mp hstart
        have hspace := hfront c List.mem_cons_self
        rw [hword c List.mem_cons_self] at hspace
        cases hspace
    · exact ih (fun c hc => hfront c (List.mem_cons_of_mem b hc)) hinfix

theorem infix_trimCopy_iff {word : Bytes} (hne : word ≠ []) (hword : ∀ b ∈ word, isSpace b = false)
    (text : Bytes) : word <:+: trimCopy text ↔ word <:+: text := by
  obtain ⟨front, back, hsplit, hfront, hback⟩ := trimCopy_split text
  constructor
  · intro h
    rw [hsplit]
    exact h.trans (List.infix_append' front (trimCopy text) back)
  · intro h
    rw [hsplit] at h
    have hbehind := infix_of_append_space hne hword hfront h
    rw [← List.reverse_infix, List.reverse_append] at hbehind
    rw [← List.reverse_infix]
    exact infix_of_append_space (by rwa [ne_eq, List.reverse_eq_nil_iff])
      (fun b hb => hword b (List.mem_reverse.mp hb)) (fun b hb => hback b (List.mem_reverse.mp hb))
      hbehind

end Trimming

section Results

/-- A control marker in front of the first role marker, with copies of `<s>`
between its bytes and copies of `</s>` between the bytes of that. -/
def Interrupted (text : Bytes) : Prop :=
  ∃ marker ∈ controlMarkers, ∃ inner outer, Woven (ascii "<s>") marker inner ∧
    inner ≠ ascii "<s>" ∧ Woven (ascii "</s>") inner outer ∧ outer ≠ ascii "</s>" ∧
    ∃ front back, text = front ++ (outer ++ back) ∧
      ∀ role ∈ roleMarkers, ¬role <:+: front ++ outer

/-- What cleaning a text is for. -/
structure CleansUp (text : Bytes) : Prop where
  free : containsGenerationControlMarker (cleanupGeneratedText text) = false
  first : ∀ b ∈ (cleanupGeneratedText text).head?, isSpace b = false
  last : ∀ b ∈ (cleanupGeneratedText text).getLast?, isSpace b = false
  again : cleanupGeneratedText (cleanupGeneratedText text) = cleanupGeneratedText text

/-- The text before it is trimmed. -/
def erasedText (text : Bytes) : Bytes :=
  eraseMarker (eraseMarker (cutText text) (ascii "</s>")) (ascii "<s>")

theorem cleanup_eq (text : Bytes) : cleanupGeneratedText text = trimCopy (erasedText text) := rfl

/-- A control marker stays exactly when it was interrupted. -/
theorem marker_erased_iff {marker : Bytes} (hmarker : marker ∈ controlMarkers) (text : Bytes) :
    marker <:+: cleanupGeneratedText text ↔
      ∃ inner outer, Woven (ascii "<s>") marker inner ∧ inner ≠ ascii "<s>" ∧
        Woven (ascii "</s>") inner outer ∧ outer ≠ ascii "</s>" ∧ outer <:+: cutText text := by
  have htag := isTag_of_mem hmarker
  have hplain : ∀ marker ∈ controlMarkers, ∀ b ∈ marker, isSpace b = false := by decide +kernel
  rw [cleanup_eq, infix_trimCopy_iff htag.ne_nil (hplain marker hmarker)]
  exact tag_erased_twice_iff (isTag_of_mem (by decide)) (isTag_of_mem (by decide)) (by decide) htag
    (eraseMarker_erases (by decide) _) (eraseMarker_erases (by decide) _)

theorem contains_cleanup_iff (text : Bytes) :
    containsGenerationControlMarker (cleanupGeneratedText text) = true ↔ Interrupted text := by
  have hlast : ∀ {marker inner outer : Bytes}, marker ∈ controlMarkers →
      Woven (ascii "<s>") marker inner → Woven (ascii "</s>") inner outer →
        outer.getLast? = some 62 := by
    intro marker inner outer hmarker hinner houter
    have hall : ∀ marker ∈ controlMarkers, marker.getLast? = some 62 := by decide
    rw [houter.getLast?_eq, hinner.getLast?_eq, hall marker hmarker]
  rw [containsGenerationControlMarker_iff]
  constructor
  · rintro ⟨marker, hmarker, hinfix⟩
    obtain ⟨inner, outer, hinner, hne, houter, hne', hcut⟩ :=
      (marker_erased_iff hmarker text).mp hinfix
    exact ⟨marker, hmarker, inner, outer, hinner, hne, houter, hne',
      (infix_cutText_iff (hlast hmarker hinner houter) text).mp hcut⟩
  · rintro ⟨marker, hmarker, inner, outer, hinner, hne, houter, hne', hplace⟩
    have hcut := (infix_cutText_iff (hlast hmarker hinner houter) text).mpr hplace
    exact ⟨marker, hmarker,
      (marker_erased_iff hmarker text).mpr ⟨inner, outer, hinner, hne, houter, hne', hcut⟩⟩

/-- A text without control markers is only trimmed. -/
theorem cleanup_of_free {text : Bytes} (h : containsGenerationControlMarker text = false) :
    cleanupGeneratedText text = trimCopy text := by
  have hnone : ∀ marker ∈ controlMarkers, ¬marker <:+: text := by
    intro marker hmarker hinfix
    rw [containsGenerationControlMarker_iff.mpr ⟨marker, hmarker, hinfix⟩] at h
    cases h
  have hcut : ∀ markers ⊆ controlMarkers, markers.foldl cutAtMarker text = text := by
    intro markers hsub
    induction markers with
    | nil => rfl
    | cons marker markers ih =>
      have hfind : find marker text = none := by
        rw [← Option.not_isSome_iff_eq_none, find_isSome_iff]
        exact hnone marker (hsub List.mem_cons_self)
      have hsame : cutAtMarker text marker = text := by rw [cutAtMarker, hfind]
      rw [List.foldl_cons, hsame]
      exact ih fun m hm => hsub (List.mem_cons_of_mem marker hm)
  have herase : ∀ marker ∈ controlMarkers, eraseMarker text marker = text := by
    intro marker hmarker
    have hne := (isTag_of_mem hmarker).ne_nil
    exact (eraseMarker_erases hne text).unique hne (erases_self (hnone marker hmarker))
  have hroles : cutText text = text := hcut roleMarkers fun role => mem_controlMarkers
  rw [cleanup_eq, erasedText, hroles, herase _ (by decide), herase _ (by decide)]

/-- A text is cleaned up exactly when no control marker in front of its first role
marker is interrupted by sentence markers. -/
theorem cleansUp_iff (text : Bytes) : CleansUp text ↔ ¬Interrupted text := by
  have hends := trimCopy_ends (erasedText text)
  constructor
  · intro h hinterrupted
    rw [← contains_cleanup_iff, h.free] at hinterrupted
    cases hinterrupted
  · intro h
    rw [← contains_cleanup_iff, Bool.not_eq_true] at h
    refine ⟨h, hends.1, hends.2, ?_⟩
    rw [cleanup_of_free h]
    exact trimCopy_of_ends hends.1 hends.2

/-- Erasing one marker makes another one. -/
theorem cleanup_leaves_marker :
    cleanupGeneratedText (ascii "<</s>|user|>") = ascii "<|user|>" ∧
      ¬CleansUp (ascii "<</s>|user|>") := by
  have hclean : cleanupGeneratedText (ascii "<</s>|user|>") = ascii "<|user|>" := by decide
  refine ⟨hclean, fun h => ?_⟩
  have hfree := h.free
  rw [hclean] at hfree
  exact absurd hfree (by decide)

end Results

end LayerInference.TextCleanup
