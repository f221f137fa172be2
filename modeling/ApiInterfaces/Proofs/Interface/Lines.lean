import ApiInterfaces.Text.Pieces

/-!
Physical lines. What is written line by line is read back as these lines, as long as no line
holds a line break itself.
-/

namespace ApiInterfaces.Text

/-- The characters that end a line wherever they stand. -/
def isLineBreak (c : Char) : Bool := c = '\n' || c = '\r'

/-- The text stays on one line. -/
def Unbroken (text : List Char) : Prop := ∀ c ∈ text, isLineBreak c = false

instance (text : List Char) : Decidable (Unbroken text) :=
  inferInstanceAs (Decidable (∀ c ∈ text, isLineBreak c = false))

/-- The lines of a text. A carriage return ends a line too, together with a line feed just
behind it if there is one. -/
def physicalLines : List Char → List (List Char)
  | [] => []
  | '\n' :: rest => [] :: physicalLines rest
  | '\r' :: '\n' :: rest => [] :: physicalLines rest
  | '\r' :: rest => [] :: physicalLines rest
  | c :: rest => pushFirst c (physicalLines rest)

/-- The text of lines that all end with a line feed. -/
def joinLines (lines : List String) : List Char := lines.flatMap (·.toList ++ ['\n'])

theorem joinLines_append (lines more : List String) :
    joinLines (lines ++ more) = joinLines lines ++ joinLines more := List.flatMap_append

theorem physicalLines_line {text : List Char} (h : Unbroken text) (rest : List Char) :
    physicalLines (text ++ '\n' :: rest) = text :: physicalLines rest := by
  induction text with
  | nil => rfl
  | cons c text ih =>
      obtain ⟨hc, htext⟩ := List.forall_mem_cons.mp h
      obtain ⟨hfeed, hreturn⟩ : c ≠ '\n' ∧ c ≠ '\r' := by simpa [isLineBreak] using hc
      rw [List.cons_append, physicalLines, ih htext]
      · rfl
      · exact hfeed
      · exact fun _ h => absurd h hreturn
      · exact hreturn

theorem physicalLines_ne_nil {text : List Char} (h : text ≠ []) : physicalLines text ≠ [] := by
  fun_cases physicalLines text with
  | case1 => exact absurd rfl h
  | case2 => simp
  | case3 => simp
  | case4 => simp
  | case5 c rest => cases physicalLines rest <;> simp [pushFirst]

/-- A text of one line. -/
theorem length_physicalLines_of_unbroken {text : List Char} (h : Unbroken text) (hne : text ≠ []) :
    (physicalLines text).length = 1 := by
  induction text with
  | nil => exact absurd rfl hne
  | cons c text ih =>
      obtain ⟨hc, htext⟩ := List.forall_mem_cons.mp h
      obtain ⟨hfeed, hreturn⟩ : c ≠ '\n' ∧ c ≠ '\r' := by simpa [isLineBreak] using hc
      rw [physicalLines]
      · cases text with
        | nil => rfl
        | cons d text =>
            have hsome := physicalLines_ne_nil (List.cons_ne_nil d text)
            rw [length_pushFirst c hsome, ih htext (List.cons_ne_nil d text)]
      · exact hfeed
      · exact fun _ h => absurd h hreturn
      · exact hreturn

/-- A text in front of a line feed is one line, and one more for each carriage return in it,
as long as none of them meets the line feed. -/
theorem length_physicalLines_append {text : List Char} (hfeed : '\n' ∉ text)
    (hlast : text.getLast? ≠ some '\r') (rest : List Char) :
    (physicalLines (text ++ '\n' :: rest)).length =
      (physicalLines rest).length + 1 + text.count '\r' := by
  induction text with
  | nil => rfl
  | cons c text ih =>
      have htext := List.not_mem_of_not_mem_cons hfeed
      by_cases hreturn : c = '\r'
      · cases text with
        | nil => exact absurd (congrArg some hreturn) hlast
        | cons d text =>
            have hrest := ih htext (by simpa using hlast)
            have hcut : physicalLines ('\r' :: (d :: text) ++ '\n' :: rest) =
                [] :: physicalLines (d :: text ++ '\n' :: rest) := by
              rw [List.cons_append, List.cons_append, physicalLines]
              rintro after hafter
              exact List.ne_of_not_mem_cons htext (List.cons.inj hafter).1.symm
            rw [hreturn, hcut, List.length_cons, hrest, List.count_cons_self]
            omega
      · have hlast' : text.getLast? ≠ some '\r' := by
          cases text with
          | nil => simp
          | cons d text => simpa using hlast
        have hsome : physicalLines (text ++ '\n' :: rest) ≠ [] :=
          physicalLines_ne_nil (by simp)
        rw [List.cons_append, physicalLines, length_pushFirst c hsome, ih htext hlast',
          List.count_cons_of_ne hreturn]
        · exact fun h => List.ne_of_not_mem_cons hfeed h.symm
        · exact fun _ h => absurd h hreturn
        · exact hreturn

/-- Lines without line breaks are read back. -/
theorem physicalLines_joinLines {lines : List String}
    (h : ∀ line ∈ lines, Unbroken line.toList) :
    physicalLines (joinLines lines) = lines.map String.toList := by
  induction lines with
  | nil => rfl
  | cons line rest ih =>
      obtain ⟨hline, hrest⟩ := List.forall_mem_cons.mp h
      have htext : joinLines (line :: rest) = line.toList ++ '\n' :: joinLines rest := by
        simp [joinLines]
      rw [htext, physicalLines_line hline, ih hrest, List.map_cons]

/-- No line break is left in a line. -/
theorem unbroken_of_mem_physicalLines {cs line : List Char} (h : line ∈ physicalLines cs) :
    Unbroken line := by
  have hempty : Unbroken [] := List.forall_mem_nil _
  fun_induction physicalLines cs generalizing line with
  | case1 => simp at h
  | case2 rest ih => exact (List.mem_cons.mp h).elim (· ▸ hempty) ih
  | case3 rest ih => exact (List.mem_cons.mp h).elim (· ▸ hempty) ih
  | case4 rest _ ih => exact (List.mem_cons.mp h).elim (· ▸ hempty) ih
  | case5 c rest hfeed _ hreturn ih =>
      have hc : isLineBreak c = false := by simpa [isLineBreak] using ⟨hfeed, hreturn⟩
      cases hlines : physicalLines rest with
      | nil =>
          rw [hlines] at h
          obtain rfl := List.mem_singleton.mp h
          exact List.forall_mem_cons.mpr ⟨hc, hempty⟩
      | cons first others =>
          rw [hlines] at h ih
          rcases List.mem_cons.mp h with rfl | h
          · exact List.forall_mem_cons.mpr ⟨hc, ih List.mem_cons_self⟩
          · exact ih (List.mem_cons_of_mem first h)

section

variable {α : Type} {separator : List α} {blocks : List (List α)}

theorem subset_intercalate {block : List α} (h : block ∈ blocks) :
    block ⊆ List.intercalate separator blocks := by
  induction blocks with
  | nil => simp at h
  | cons first rest ih =>
      cases rest with
      | nil =>
          obtain rfl := List.mem_singleton.mp h
          simp
      | cons next rest =>
          rw [List.intercalate_cons_cons]
          rcases List.mem_cons.mp h with rfl | h
          · exact List.subset_append_of_subset_left _ (List.subset_append_left _ _)
          · exact List.subset_append_of_subset_right _ (ih h)

theorem mem_or_exists_of_mem_intercalate {a : α} (h : a ∈ List.intercalate separator blocks) :
    a ∈ separator ∨ ∃ block ∈ blocks, a ∈ block := by
  induction blocks with
  | nil => simp at h
  | cons first rest ih =>
      cases rest with
      | nil => exact .inr ⟨first, List.mem_cons_self, by simpa using h⟩
      | cons next rest =>
          rw [List.intercalate_cons_cons] at h
          rcases List.mem_append.mp h with h | h
          · rcases List.mem_append.mp h with h | h
            · exact .inr ⟨first, List.mem_cons_self, h⟩
            · exact .inl h
          · refine (ih h).imp_right fun ⟨block, hblock, ha⟩ => ?_
            exact ⟨block, List.mem_cons_of_mem first hblock, ha⟩

end

/-- One empty line between the blocks of lines is one line feed between their texts. -/
theorem joinLines_intercalate (blocks : List (List String)) :
    joinLines (List.intercalate [""] blocks) =
      List.intercalate ['\n'] (blocks.map joinLines) := by
  induction blocks with
  | nil => rfl
  | cons block rest ih =>
      cases rest with
      | nil => simp
      | cons next rest =>
          have hempty : joinLines [""] = ['\n'] := rfl
          rw [List.map_cons] at ih
          rw [List.map_cons, List.map_cons, List.intercalate_cons_cons,
            List.intercalate_cons_cons, joinLines_append, joinLines_append, hempty, ih]

end ApiInterfaces.Text
