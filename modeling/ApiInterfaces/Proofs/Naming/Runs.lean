import ApiInterfaces.Proofs.Naming.Extension
import Mathlib.Data.List.TakeWhile

/-!
The words of a name. Cleaning goes through a text once and only remembers whether it has just
dropped a character. What it computes is a rule on the maximal runs of identifier characters:
they are joined in order, and each one that has a character in front of it is capitalised.
-/

namespace ApiInterfaces.Naming

/-- Identifier characters that stand side by side in a text, behind `start` other characters. -/
structure Run where
  start : Nat
  chars : List Char
deriving DecidableEq, Repr

/-- The characters stand in the text behind `start` others, all of them are identifier characters,
and those next to them on either side are not. -/
structure IsMaximalRun (text : List Char) (start : Nat) (chars : List Char) : Prop where
  ne_nil : chars ≠ []
  kept : ∀ c ∈ chars, isIdentifierChar c = true
  bounded : ∃ before after, text = before ++ chars ++ after ∧ before.length = start ∧
    (∀ c ∈ before.getLast?, isIdentifierChar c = false) ∧
    ∀ c ∈ after.head?, isIdentifierChar c = false

/-- The maximal runs of what follows the first `start` characters of a text. -/
def runsFrom (start : Nat) : List Char → List Run
  | [] => []
  | c :: rest =>
    if isIdentifierChar c then
      ⟨start, c :: rest.takeWhile isIdentifierChar⟩ ::
        runsFrom (start + (c :: rest.takeWhile isIdentifierChar).length)
          (rest.dropWhile isIdentifierChar)
    else runsFrom (start + 1) rest
termination_by text => text.length
decreasing_by
  · have hlength := (rest.dropWhile_sublist isIdentifierChar).length_le
    simp only [List.length_cons]
    omega
  · simp

/-- The maximal runs of a text, in order. -/
def runs (text : List Char) : List Run := runsFrom 0 text

/-- What a run gives to a name: one at the very start of the text stands as it is. -/
def Run.word (run : Run) : List Char :=
  if run.start = 0 then run.chars else capitalize run.chars

/-! ### The runs found are the maximal ones -/

/-- The identifier characters that a text begins with, and what follows them. -/
structure Leads (kept rest : List Char) : Prop where
  ne_nil : kept ≠ []
  kept : ∀ c ∈ kept, isIdentifierChar c = true
  ended : ∀ c ∈ rest.head?, isIdentifierChar c = false

theorem leads_takeWhile {c : Char} (h : isIdentifierChar c = true) (rest : List Char) :
    Leads (c :: rest.takeWhile isIdentifierChar) (rest.dropWhile isIdentifierChar) where
  ne_nil := List.cons_ne_nil _ _
  kept d hd := by
    rcases List.mem_cons.mp hd with rfl | hd
    · exact h
    · exact List.mem_takeWhile_imp hd
  ended d hd := by
    have hhead := List.head?_dropWhile_not isIdentifierChar rest
    rw [Option.mem_def.mp hd] at hhead
    simpa using hhead

theorem Leads.takeWhile_eq {kept rest : List Char} (h : Leads kept rest) :
    (kept ++ rest).takeWhile isIdentifierChar = kept := by
  rw [List.takeWhile_append_of_pos h.kept]
  cases rest with
  | nil => simp
  | cons c others => simp [h.ended c rfl]

theorem isMaximalRun_cons_iff {c : Char} (hc : isIdentifierChar c = false) {rest chars : List Char}
    {start : Nat} :
    IsMaximalRun (c :: rest) start chars ↔
      ∃ place, start = place + 1 ∧ IsMaximalRun rest place chars := by
  constructor
  · rintro ⟨hne, hkept, before, after, htext, hstart, hbefore, hafter⟩
    cases before with
    | nil =>
        -- The run would begin with the dropped character.
        obtain ⟨d, others, rfl⟩ := List.exists_cons_of_ne_nil hne
        obtain rfl : c = d := (List.cons.inj htext).1
        rw [hkept c List.mem_cons_self] at hc
        exact absurd hc (by decide)
    | cons d front =>
        have hrest : rest = front ++ chars ++ after := (List.cons.inj htext).2
        refine ⟨front.length, hstart.symm, hne, hkept, front, after, hrest, rfl, ?_, hafter⟩
        intro e he
        exact hbefore e (by simp [List.getLast?_cons, Option.mem_def.mp he])
  · rintro ⟨place, rfl, hne, hkept, before, after, rfl, rfl, hbefore, hafter⟩
    refine ⟨hne, hkept, c :: before, after, rfl, rfl, ?_, hafter⟩
    intro e he
    cases before with
    | nil =>
        obtain rfl : c = e := by simpa using he
        exact hc
    | cons d front => exact hbefore e (by simpa using he)

theorem Leads.isMaximalRun_iff {kept rest : List Char} (h : Leads kept rest) {chars : List Char}
    {start : Nat} :
    IsMaximalRun (kept ++ rest) start chars ↔ start = 0 ∧ chars = kept ∨
      ∃ place, start = kept.length + place ∧ IsMaximalRun rest place chars := by
  constructor
  · rintro ⟨hne, hkept, before, after, htext, rfl, hbefore, hafter⟩
    rw [List.append_assoc, eq_comm, List.append_eq_append_iff] at htext
    obtain ⟨inside, rfl, htext⟩ | ⟨front, rfl, rfl⟩ := htext
    · cases hlast : before.getLast? with
      | none =>
          obtain rfl : before = [] := List.getLast?_eq_none_iff.mp hlast
          have hleads : Leads chars after := ⟨hne, hkept, hafter⟩
          have hchars : chars = inside := by
            rw [← hleads.takeWhile_eq, htext]
            exact h.takeWhile_eq
          exact .inl ⟨rfl, hchars⟩
      | some last =>
          -- The run would stand behind an identifier character.
          have hmem : last ∈ before := List.mem_of_getLast? hlast
          have hgap : isIdentifierChar last = false := hbefore last hlast
          rw [h.kept last (List.mem_append_left _ hmem)] at hgap
          exact absurd hgap (by decide)
    · refine .inr ⟨front.length, by simp, hne, hkept, front, after, by simp, rfl, ?_, hafter⟩
      intro c hc
      exact hbefore c (by simp [List.getLast?_append, Option.mem_def.mp hc])
  · rintro (⟨rfl, rfl⟩ | ⟨place, rfl, hne, hkept, before, after, rfl, rfl, hbefore, hafter⟩)
    · exact ⟨h.ne_nil, h.kept, [], rest, rfl, rfl, by simp, h.ended⟩
    · refine ⟨hne, hkept, kept ++ before, after, by simp, by simp, ?_, hafter⟩
      cases before with
      | nil =>
          -- The rest would begin with an identifier character.
          obtain ⟨c, others, rfl⟩ := List.exists_cons_of_ne_nil hne
          have hgap : isIdentifierChar c = false := h.ended c rfl
          rw [hkept c List.mem_cons_self] at hgap
          exact absurd hgap (by decide)
      | cons d front =>
          intro c hc
          exact hbefore c (by simpa [List.getLast?_append, List.getLast?_cons] using hc)

/-- Exactly the maximal runs are found, each at its place. -/
theorem mem_runsFrom_iff {text : List Char} {start : Nat} {run : Run} :
    run ∈ runsFrom start text ↔
      ∃ place, run.start = start + place ∧ IsMaximalRun text place run.chars := by
  fun_induction runsFrom start text generalizing run with
  | case1 start =>
      simp only [List.not_mem_nil, false_iff, not_exists, not_and]
      rintro place - ⟨hne, -, before, after, htext, -⟩
      simp_all
  | case2 start c rest hc ih =>
      have hleads := leads_takeWhile hc rest
      have htext : c :: rest =
          (c :: rest.takeWhile isIdentifierChar) ++ rest.dropWhile isIdentifierChar := by simp
      rw [htext, List.mem_cons, ih]
      simp only [hleads.isMaximalRun_iff]
      constructor
      · rintro (rfl | ⟨place, hstart, hmaximal⟩)
        · exact ⟨0, rfl, .inl ⟨rfl, rfl⟩⟩
        · exact ⟨_, by rw [hstart, Nat.add_assoc], .inr ⟨place, rfl, hmaximal⟩⟩
      · rintro ⟨place, hstart, ⟨rfl, hchars⟩ | ⟨inner, rfl, hmaximal⟩⟩
        · left
          cases run
          simp_all
        · exact .inr ⟨inner, by rw [hstart, Nat.add_assoc], hmaximal⟩
  | case3 start c rest hc ih =>
      rw [ih]
      simp only [isMaximalRun_cons_iff (Bool.eq_false_iff.mpr hc)]
      constructor
      · rintro ⟨place, hstart, hmaximal⟩
        exact ⟨place + 1, by omega, place, rfl, hmaximal⟩
      · rintro ⟨place, hstart, inner, rfl, hmaximal⟩
        exact ⟨inner, by omega, hmaximal⟩

theorem pairwise_start_runsFrom (start : Nat) (text : List Char) :
    (runsFrom start text).Pairwise fun a b => a.start < b.start := by
  fun_induction runsFrom start text with
  | case1 => exact List.Pairwise.nil
  | case2 start c rest hc ih =>
      refine List.Pairwise.cons ?_ ih
      intro run hrun
      obtain ⟨place, hstart, -⟩ := mem_runsFrom_iff.mp hrun
      simp only [List.length_cons] at hstart
      show start < run.start
      omega
  | case3 start c rest hc ih => exact ih

/-! ### Cleaning joins the words -/

/-- At an identifier character cleaning forgets what it has dropped, elsewhere it notes that it
drops one; so the two states differ only where the text begins with an identifier character. -/
theorem keepIdentifierChars_eq_of_head {rest : List Char}
    (h : ∀ c ∈ rest.head?, isIdentifierChar c = false) :
    keepIdentifierChars false rest = keepIdentifierChars true rest := by
  cases rest with
  | nil => rfl
  | cons c others => simp [keepIdentifierChars, h c rfl]

theorem Leads.keepIdentifierChars_eq {kept rest : List Char} (h : Leads kept rest)
    (afterGap : Bool) :
    keepIdentifierChars afterGap (kept ++ rest) =
      (if afterGap then capitalize kept else kept) ++ keepIdentifierChars true rest := by
  obtain ⟨c, others, rfl⟩ := List.exists_cons_of_ne_nil h.ne_nil
  have hothers := keepIdentifierChars_append (fun d hd => h.kept d (List.mem_cons_of_mem c hd)) rest
  rw [List.cons_append, keepIdentifierChars, if_pos (h.kept c List.mem_cons_self), hothers,
    keepIdentifierChars_eq_of_head h.ended]
  cases afterGap <;> simp [capitalize]

/-- Behind a dropped character every run is capitalised. -/
theorem keepIdentifierChars_true_eq (start : Nat) (text : List Char) :
    keepIdentifierChars true text =
      (runsFrom start text).flatMap fun run => capitalize run.chars := by
  fun_induction runsFrom start text with
  | case1 => rfl
  | case2 start c rest hc ih =>
      have hkept := (leads_takeWhile hc rest).keepIdentifierChars_eq true
      rw [List.cons_append, List.takeWhile_append_dropWhile] at hkept
      rw [hkept, ih]
      rfl
  | case3 start c rest hc ih => rw [keepIdentifierChars, if_neg hc, ih]

theorem flatMap_word_runsFrom {start : Nat} (h : start ≠ 0) (text : List Char) :
    (runsFrom start text).flatMap Run.word = keepIdentifierChars true text := by
  rw [keepIdentifierChars_true_eq start text]
  refine List.flatMap_congr fun run hrun => ?_
  obtain ⟨place, hstart, -⟩ := mem_runsFrom_iff.mp hrun
  rw [Run.word, if_neg (by omega)]

theorem flatMap_word_runs (text : List Char) :
    (runs text).flatMap Run.word = keepIdentifierChars false text := by
  cases text with
  | nil => simp [runs, runsFrom, keepIdentifierChars]
  | cons c rest =>
      by_cases hc : isIdentifierChar c = true
      · have hkept := (leads_takeWhile hc rest).keepIdentifierChars_eq false
        rw [List.cons_append, List.takeWhile_append_dropWhile] at hkept
        rw [hkept, runs, runsFrom, if_pos hc, List.flatMap_cons, flatMap_word_runsFrom (by simp)]
        rfl
      · rw [runs, runsFrom, if_neg hc, flatMap_word_runsFrom (by simp), keepIdentifierChars,
          if_neg hc]

/-- An identifier is what the maximal runs of identifier characters of a text give when they are
joined in order, all but one at the very start of the text being capitalised; it is `Schema` where
they give nothing, and a decimal digit at the start gets a `_` in front. -/
theorem identifier_joins_runs (raw : String) :
    (∀ run, run ∈ runs raw.toList ↔ IsMaximalRun raw.toList run.start run.chars) ∧
    (runs raw.toList).Pairwise (fun a b => a.start < b.start) ∧
    identifier raw =
      (let joined := (runs raw.toList).flatMap Run.word
      if joined = [] then "Schema"
      else if joined.head?.any Char.isDigit then String.ofList ('_' :: joined)
      else String.ofList joined) := by
  refine ⟨fun run => ?_, pairwise_start_runsFrom 0 raw.toList, ?_⟩
  · rw [runs, mem_runsFrom_iff]
    simp
  · simp only [flatMap_word_runs, identifier, identifierChars]
    cases keepIdentifierChars false raw.toList with
    | nil => rfl
    | cons c rest => by_cases hdigit : c.isDigit = true <;> simp [hdigit]

end ApiInterfaces.Naming
