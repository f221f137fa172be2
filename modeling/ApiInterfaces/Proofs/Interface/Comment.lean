import ApiInterfaces.Interface.Comment
import ApiInterfaces.Proofs.Interface.Lines
import ApiInterfaces.Proofs.Interface.Scan
import ApiInterfaces.Proofs.Unicode.Blank

/-!
Comments hold what is put into them. No line of a comment ends it, whatever text the
line shows, so the comment is read as one piece up to its last line.
-/

namespace ApiInterfaces.Comment

open Scan

theorem head?_breakEnds (cs : List Char) : (breakEnds cs).head? = cs.head? := by
  fun_cases breakEnds cs <;> rfl

theorem unended_breakEnds (cs : List Char) : Unended (breakEnds cs) := by
  fun_induction breakEnds cs with
  | case1 rest ih =>
      -- The backslash keeps the star and the slash apart.
      have hslash : Unended ('/' :: breakEnds rest) := ih.cons fun d _ h => by simp at h
      exact .cons_cons (by decide) (.cons_cons (by decide) hslash)
  | case2 c rest hother ih =>
      -- What follows a character still begins as it did, so no end arises here.
      refine ih.cons fun d hd => ?_
      rw [head?_breakEnds] at hd
      rintro ⟨rfl, rfl⟩
      cases rest with
      | nil => simp at hd
      | cons e rest =>
          obtain rfl : e = '/' := Option.some.inj hd
          exact hother rest rfl rfl
  | case3 => exact .nil

theorem mem_of_mem_breakEnds {cs : List Char} {c : Char} (h : c ∈ breakEnds cs) :
    c = '\\' ∨ c ∈ cs := by
  fun_induction breakEnds cs with
  | case1 rest ih => grind
  | case2 d rest _ ih => grind
  | case3 => simp at h

theorem breakEnds_eq_nil_iff {cs : List Char} : breakEnds cs = [] ↔ cs = [] := by
  fun_cases breakEnds cs <;> simp

/-- Breaking up ends and dropping blanks at the end do not get into each other's way. -/
theorem trimEnd_breakEnds (cs : List Char) :
    Unicode.trimEnd (breakEnds cs) = breakEnds (Unicode.trimEnd cs) := by
  fun_induction breakEnds cs with
  | case1 rest ih =>
      have hstar : Unicode.isBlank '*' = false := by decide
      have hslash : Unicode.isBlank '/' = false := by decide
      have hback : Unicode.isBlank '\\' = false := by decide
      simp only [Unicode.trimEnd_cons, hstar, hslash, hback, Bool.false_eq_true, false_and,
        if_false, ih, breakEnds]
  | case2 c rest hother ih =>
      simp only [Unicode.trimEnd_cons, ih, breakEnds_eq_nil_iff]
      split
      next => rfl
      next =>
        -- What is left behind the character begins as before, if anything is left.
        rw [breakEnds]
        intro after hc hafter
        obtain ⟨blanks, hrest, -⟩ := Unicode.exists_blanks_trimEnd rest
        exact hother (after ++ blanks) hc (by rw [hrest, hafter, List.cons_append])
  | case3 => rfl

theorem getLast?_breakEnds (cs : List Char) : (breakEnds cs).getLast? = cs.getLast? := by
  fun_induction breakEnds cs with
  | case1 rest ih => simp [List.getLast?_cons, ih]
  | case2 c rest _ ih => rw [List.getLast?_cons, List.getLast?_cons, ih]
  | case3 => rfl

theorem count_breakEnds {c : Char} (hc : c ≠ '\\') (cs : List Char) :
    (breakEnds cs).count c = cs.count c := by
  fun_induction breakEnds cs with
  | case1 rest ih => simp [List.count_cons, ih, hc.symm]
  | case2 d rest _ ih => rw [List.count_cons, List.count_cons, ih]
  | case3 => rfl

/-! Lines of comments. -/

/-- What a comment shows of a text, behind the star of its line. -/
def shown (text : List Char) : List Char :=
  if Unicode.trimEnd text = [] then [] else ' ' :: breakEnds (Unicode.trimEnd text)

theorem line_eq (indent text : List Char) :
    line indent text = indent ++ [' ', '*'] ++ shown text ++ ['\n'] := by
  unfold line shown
  rw [trimEnd_breakEnds]
  split
  next hnil => simp [breakEnds_eq_nil_iff.mp hnil]
  next hsome =>
    have hleft : Unicode.trimEnd text ≠ [] := fun hnil => hsome (breakEnds_eq_nil_iff.mpr hnil)
    simp [hleft]

theorem unended_shown (text : List Char) : Unended (shown text) := by
  unfold shown
  split
  next => exact .nil
  next => exact (unended_breakEnds _).cons fun d _ h => by simp at h

theorem head?_shown (text : List Char) : (shown text).head? ≠ some '/' := by
  unfold shown
  split <;> simp

theorem mem_of_mem_shown {text : List Char} {c : Char} (h : c ∈ shown text) :
    c = ' ' ∨ c = '\\' ∨ c ∈ text := by
  unfold shown at h
  split at h
  next => simp at h
  next =>
    refine (List.mem_cons.mp h).imp_right fun h => (mem_of_mem_breakEnds h).imp_right fun h => ?_
    obtain ⟨blanks, htext, -⟩ := Unicode.exists_blanks_trimEnd text
    rw [htext]
    exact List.mem_append_left blanks h

/-- What is shown does not end in a blank. -/
theorem not_isBlank_of_getLast?_shown {text : List Char} {c : Char}
    (h : (shown text).getLast? = some c) : Unicode.isBlank c = false := by
  unfold shown at h
  split at h
  next => simp at h
  next hsome =>
    rw [List.getLast?_cons_of_ne_nil (breakEnds_eq_nil_iff.not.mpr hsome), getLast?_breakEnds] at h
    exact Unicode.not_isBlank_of_getLast?_trimEnd h

theorem count_shown {c : Char} (hblank : c ≠ ' ') (hback : c ≠ '\\') (text : List Char) :
    (shown text).count c = (Unicode.trimEnd text).count c := by
  unfold shown
  split
  next hnil => rw [hnil]
  next => rw [List.count_cons_of_ne hblank.symm, count_breakEnds hback]

theorem unended_line_append (n : Nat) (text : List Char) {rest : List Char} (h : Unended rest) :
    Unended (line (List.replicate n ' ') text ++ rest) := by
  have hindent : Unended (List.replicate n ' ' ++ [' ']) :=
    unended_of_not_mem (by simp [List.mem_replicate])
  have hrest : Unended ('\n' :: rest) := h.cons fun d _ => by simp
  have hstar : Unended ('*' :: shown text ++ '\n' :: rest) := by
    have hown : Unended ('*' :: shown text) :=
      (unended_shown text).cons fun d hd => fun ⟨_, hslash⟩ => head?_shown text (hslash ▸ hd)
    exact hown.append hrest (by simp)
  have hsplit : line (List.replicate n ' ') text ++ rest =
      (List.replicate n ' ' ++ [' ']) ++ ('*' :: shown text ++ '\n' :: rest) := by
    simp [line_eq]
  rw [hsplit]
  exact hindent.append hstar (by simp)

/-- The lines of a comment and what stands behind them have no end of a comment if
what stands behind them has none. -/
theorem unended_lines_append (n : Nat) (lines : List (List Char)) {rest : List Char}
    (h : Unended rest) : Unended (lines.flatMap (line (List.replicate n ' ')) ++ rest) := by
  induction lines with
  | nil => exact h
  | cons text lines ih =>
      rw [List.flatMap_cons, List.append_assoc]
      exact unended_line_append n text ih

/-- The carriage returns in lines but for those among the blanks at their ends. -/
def innerReturns (lines : List (List Char)) : Nat := (lines.flatMap Unicode.trimEnd).count '\r'

/-- A line of a comment is one physical line, and one more for each carriage return that it
shows. -/
theorem length_physicalLines_line_append (n : Nat) {text : List Char} (h : '\n' ∉ text)
    (rest : List Char) :
    (Text.physicalLines (line (List.replicate n ' ') text ++ rest)).length =
      (Text.physicalLines rest).length + 1 + (Unicode.trimEnd text).count '\r' := by
  have hshown : '\n' ∉ shown text := fun hfeed => by simpa [h] using mem_of_mem_shown hfeed
  have hfeed : '\n' ∉ List.replicate n ' ' ++ [' ', '*'] ++ shown text := by
    simp [List.mem_replicate, hshown]
  have hlast : (List.replicate n ' ' ++ [' ', '*'] ++ shown text).getLast? ≠ some '\r' := by
    rw [List.getLast?_append]
    cases hshown : (shown text).getLast? with
    | none => simp
    | some c =>
        rintro hreturn
        obtain rfl : c = '\r' := Option.some.inj hreturn
        exact absurd (not_isBlank_of_getLast?_shown hshown) (by decide)
  have hcount : (List.replicate n ' ' ++ [' ', '*'] ++ shown text).count '\r' =
      (Unicode.trimEnd text).count '\r' := by
    simp [List.count_replicate, count_shown]
  rw [line_eq, List.append_assoc, List.singleton_append,
    Text.length_physicalLines_append hfeed hlast, hcount]

theorem length_physicalLines_flatMap_line_append (n : Nat) {lines : List (List Char)}
    (h : ∀ text ∈ lines, '\n' ∉ text) (rest : List Char) :
    (Text.physicalLines (lines.flatMap (line (List.replicate n ' ')) ++ rest)).length =
      (Text.physicalLines rest).length + lines.length + innerReturns lines := by
  induction lines with
  | nil => rfl
  | cons text lines ih =>
      rw [List.flatMap_cons, List.append_assoc,
        length_physicalLines_line_append n (h text List.mem_cons_self),
        ih fun other hother => h other (List.mem_cons_of_mem text hother), List.length_cons,
        innerReturns, innerReturns, List.flatMap_cons, List.count_append]
      omega

/-! Whole comments. -/

/-- A comment without the indentation of its first line and the break after its last. -/
def core (opening : String) (indent : List Char) (lines : List (List Char)) : List Char :=
  opening.toList ++ '\n' :: lines.flatMap (line indent) ++ indent ++ [' ', '*', '/']

theorem block_eq (opening : String) (indent : List Char) (lines : List (List Char)) :
    block opening indent lines = indent ++ core opening indent lines ++ ['\n'] := by
  simp [block, core]

section

variable {opening : String} (hopening : opening = "/*" ∨ opening = "/**") (n : Nat)
  (lines : List (List Char))

include hopening

/-- The text of a comment in front of its end mark. -/
theorem exists_core_eq :
    ∃ text, core opening (List.replicate n ' ') lines = '/' :: '*' :: text ++ ['*', '/'] ∧
      Unended ('/' :: '*' :: text) := by
  have hindent : Unended (List.replicate n ' ' ++ [' ']) :=
    unended_of_not_mem (by simp [List.mem_replicate])
  have hlines := unended_lines_append n lines hindent
  obtain ⟨more, hmore, hstart⟩ : ∃ more, opening.toList = '/' :: '*' :: more ∧
      Unended (opening.toList ++ ['\n']) := by
    rcases hopening with rfl | rfl
    · exact ⟨[], rfl, by decide⟩
    · exact ⟨['*'], rfl, by decide⟩
  refine ⟨more ++ '\n' :: (lines.flatMap (line (List.replicate n ' ')) ++
    (List.replicate n ' ' ++ [' '])), by simp [core, hmore], ?_⟩
  have hwhole := hstart.append hlines (by simp)
  simpa [hmore] using hwhole

/-- A comment on its lines is deleted with them. -/
theorem sheds_block :
    Sheds (block opening (List.replicate n ' ') lines) []
      [core opening (List.replicate n ' ') lines] := by
  obtain ⟨text, hcore, hunended⟩ := exists_core_eq hopening n lines
  rw [block_eq, hcore]
  exact .comment hunended n

theorem endsOnce_core : EndsOnce (core opening (List.replicate n ' ') lines) := by
  obtain ⟨text, hcore, hunended⟩ := exists_core_eq hopening n lines
  rw [hcore]
  exact hunended.endsOnce

/-- The first line opens the comment, the last ends it, and between them stands what is shown
of each line: one physical line, unless it holds carriage returns. -/
theorem length_physicalLines_core (h : ∀ text ∈ lines, '\n' ∉ text) :
    (Text.physicalLines (core opening (List.replicate n ' ') lines)).length =
      lines.length + 2 + innerReturns lines := by
  have hopens : Text.Unbroken opening.toList := by
    rcases hopening with rfl | rfl <;> simp [Text.Unbroken, Text.isLineBreak]
  have hends : Text.Unbroken (List.replicate n ' ' ++ [' ', '*', '/']) := by
    intro c hc
    rcases List.mem_append.mp hc with hc | hc
    · rw [List.eq_of_mem_replicate hc]
      rfl
    · obtain rfl | rfl | rfl : c = ' ' ∨ c = '*' ∨ c = '/' := by simpa using hc
      all_goals rfl
  have hlast := Text.length_physicalLines_of_unbroken hends (by simp)
  rw [core, List.append_assoc, List.append_assoc, List.cons_append,
    Text.physicalLines_line hopens, List.length_cons, length_physicalLines_flatMap_line_append n h,
    hlast]
  omega

end

end ApiInterfaces.Comment
