import ApiInterfaces.Unicode.Blank
import Mathlib.Data.List.TakeWhile

/-!
Blanks at the end of a text and between its words. What is left after blanks are taken off ends in
a character that is not blank, and words hold nothing that is not in the text.
-/

namespace ApiInterfaces.Unicode

/-- What is left after blanks are taken off the end is in front of them. -/
theorem exists_blanks_trimEnd (cs : List Char) :
    ∃ blanks, cs = trimEnd cs ++ blanks ∧ ∀ c ∈ blanks, isBlank c = true := by
  refine ⟨(cs.reverse.takeWhile isBlank).reverse, ?_, ?_⟩
  · rw [trimEnd, ← List.reverse_append, List.takeWhile_append_dropWhile, List.reverse_reverse]
  · intro c hc
    exact List.mem_takeWhile_imp (List.mem_reverse.mp hc)

theorem mem_trimEnd {cs : List Char} {c : Char} (h : c ∈ cs) (hc : isBlank c = false) :
    c ∈ trimEnd cs := by
  obtain ⟨blanks, hcs, hblanks⟩ := exists_blanks_trimEnd cs
  rw [hcs] at h
  rcases List.mem_append.mp h with h | h
  · exact h
  · rw [hblanks c h] at hc
    simp at hc

/-- A blank goes if nothing is left behind it. -/
theorem trimEnd_cons (c : Char) (cs : List Char) :
    trimEnd (c :: cs) = if isBlank c ∧ trimEnd cs = [] then [] else c :: trimEnd cs := by
  simp only [trimEnd, List.reverse_cons, List.dropWhile_append, List.reverse_eq_nil_iff,
    List.isEmpty_iff]
  by_cases hleft : cs.reverse.dropWhile isBlank = []
  · cases hblank : isBlank c <;> simp [hleft, hblank]
  · simp [hleft]

theorem not_isBlank_of_getLast?_trimEnd {cs : List Char} {c : Char}
    (h : (trimEnd cs).getLast? = some c) : isBlank c = false := by
  rw [trimEnd, List.getLast?_reverse] at h
  have hnot := List.head?_dropWhile_not isBlank cs.reverse
  rwa [h] at hnot

theorem mem_of_mem_words {cs word : List Char} (hword : word ∈ words cs) {c : Char}
    (hc : c ∈ word) : c ∈ cs := by
  fun_induction words cs generalizing word with
  | case1 => simp at hword
  | case2 d h => simp at hword
  | case3 d h =>
      obtain rfl := List.mem_singleton.mp hword
      exact hc
  | case4 d e rest h ih => exact List.mem_cons_of_mem d (ih hword hc)
  | case5 d e rest h he ih =>
      rcases List.mem_cons.mp hword with rfl | hword
      · obtain rfl := List.mem_singleton.mp hc
        exact List.mem_cons_self
      · exact List.mem_cons_of_mem d (ih hword hc)
  | case6 d e rest h he ih =>
      cases hwords : words (e :: rest) with
      | nil =>
          rw [hwords] at hword
          obtain rfl := List.mem_singleton.mp hword
          obtain rfl := List.mem_singleton.mp hc
          exact List.mem_cons_self
      | cons first others =>
          rw [hwords] at hword
          rcases List.mem_cons.mp hword with rfl | hword
          · rcases List.mem_cons.mp hc with rfl | hc
            · exact List.mem_cons_self
            · exact List.mem_cons_of_mem d (ih (hwords ▸ List.mem_cons_self) hc)
          · exact List.mem_cons_of_mem d (ih (hwords ▸ List.mem_cons_of_mem first hword) hc)

end ApiInterfaces.Unicode
