import ApiInterfaces.Unicode.Casing

/-!
What case mappings yield. Ranges of code points that no entry of the tables leads into are
reached by no character but those already there.
-/

namespace ApiInterfaces.Unicode

/-- The code point is in none of the ranges. -/
def Avoids (ranges : List (Nat × Nat)) (n : Nat) : Prop := ∀ r ∈ ranges, n < r.1 ∨ r.2 < n

instance (ranges : List (Nat × Nat)) (n : Nat) : Decidable (Avoids ranges n) :=
  inferInstanceAs (Decidable (∀ r ∈ ranges, n < r.1 ∨ r.2 < n))

theorem Avoids.not_inRanges {ranges : List (Nat × Nat)} {n : Nat} (h : Avoids ranges n) :
    inRanges n ranges = false := by
  rw [Bool.eq_false_iff]
  intro hin
  obtain ⟨r, hr, hfirst, hlast⟩ := exists_of_inRanges hin
  have hout := h r hr
  omega

/-- A number is the code point of its character, unless it is none at all. -/
theorem toNat_ofNat (n : Nat) : (Char.ofNat n).toNat = n ∨ (Char.ofNat n).toNat = 0 := by
  by_cases hvalid : n.isValidChar
  · left
    rw [Char.ofNat, dif_pos hvalid]
    rfl
  · right
    rw [Char.ofNat, dif_neg hvalid]
    rfl

theorem Avoids.ofNat {ranges : List (Nat × Nat)} {n : Nat} (h : Avoids ranges n)
    (hzero : Avoids ranges 0) : Avoids ranges (Char.ofNat n).toNat := by
  rcases toNat_ofNat n with hn | hn
  · rwa [hn]
  · rwa [hn]

/-- No entry of the tables leads into the ranges. -/
structure MapsOutside (sequences : List (Nat × List Nat)) (runs : List CaseRun)
    (ranges : List (Nat × Nat)) : Prop where
  zero : Avoids ranges 0
  sequences : ∀ entry ∈ sequences, ∀ code ∈ entry.2, Avoids ranges code
  runs : ∀ run ∈ runs, ∀ r ∈ ranges,
    (run.last : Int) + run.shift < r.1 ∨ (r.2 : Int) < run.first + run.shift

section

variable {sequences : List (Nat × List Nat)} {runs : List CaseRun} {ranges : List (Nat × Nat)}
  {c d : Char}

theorem CaseRun.shifted?_eq_some {run : CaseRun} {n code : Nat}
    (h : run.shifted? n = some code) :
    run.first ≤ n ∧ n ≤ run.last ∧ (n - run.first) % run.stride = 0 ∧
      code = ((n : Int) + run.shift).toNat := by
  unfold CaseRun.shifted? at h
  split at h
  next hrange => exact ⟨hrange.1, hrange.2.1, hrange.2.2, (Option.some.inj h).symm⟩
  next => simp at h

/-- A character is mapped by a sequence or by a run that has it, or is left as it is. -/
theorem mapCase_cases (sequences : List (Nat × List Nat)) (runs : List CaseRun) (c : Char) :
    (∃ entry ∈ sequences, entry.1 = c.toNat ∧
      mapCase sequences runs c = entry.2.map Char.ofNat) ∨
    (∃ run ∈ runs, ∃ code, run.shifted? c.toNat = some code ∧
      mapCase sequences runs c = [Char.ofNat code]) ∨
    (∀ run ∈ runs, run.shifted? c.toNat = none) ∧ mapCase sequences runs c = [c] := by
  unfold mapCase
  split
  next key codes hentry =>
    have hkey : key = c.toNat := by simpa using List.find?_some hentry
    exact .inl ⟨(key, codes), List.mem_of_find?_eq_some hentry, hkey, rfl⟩
  next =>
    split
    next code hcode =>
      obtain ⟨run, hrun, hshifted⟩ := List.exists_of_findSome?_eq_some hcode
      exact .inr (.inl ⟨run, hrun, code, hshifted, rfl⟩)
    next hnone => exact .inr (.inr ⟨List.findSome?_eq_none_iff.mp hnone, rfl⟩)

theorem MapsOutside.eq_or_avoids (h : MapsOutside sequences runs ranges)
    (hd : d ∈ mapCase sequences runs c) : d = c ∨ Avoids ranges d.toNat := by
  obtain ⟨entry, hentry, -, hmapped⟩ | ⟨run, hrun, code, hshifted, hmapped⟩ | ⟨-, hmapped⟩ :=
    mapCase_cases sequences runs c
  · rw [hmapped] at hd
    obtain ⟨code, hcode, rfl⟩ := List.mem_map.mp hd
    exact .inr ((h.sequences entry hentry code hcode).ofNat h.zero)
  · obtain ⟨hfirst, hlast, -, rfl⟩ := CaseRun.shifted?_eq_some hshifted
    rw [hmapped] at hd
    obtain rfl := List.mem_singleton.mp hd
    right
    apply Avoids.ofNat _ h.zero
    intro r hr
    have hout := h.runs run hrun r hr
    have hpositive := h.zero r hr
    omega
  · rw [hmapped] at hd
    exact .inl (List.mem_singleton.mp hd)

theorem mapCase_ne_nil (hsequences : ∀ entry ∈ sequences, entry.2 ≠ []) :
    mapCase sequences runs c ≠ [] := by
  obtain ⟨entry, hentry, -, hmapped⟩ | ⟨run, -, code, -, hmapped⟩ | ⟨-, hmapped⟩ :=
    mapCase_cases sequences runs c
  · rw [hmapped, Ne, List.map_eq_nil_iff]
    exact hsequences entry hentry
  · rw [hmapped]
    exact List.cons_ne_nil _ _
  · rw [hmapped]
    exact List.cons_ne_nil _ _

/-- Lower case deletes no character. -/
theorem lower_ne_nil (c : Char) : lower c ≠ [] := mapCase_ne_nil (by decide +kernel)

end

/-- What holds of the first 128 code points holds of every character of ASCII. -/
theorem forall_ascii {P : Char → Prop} (hall : ∀ n < 128, P (Char.ofNat n)) {c : Char}
    (h : c.toNat < 128) : P c := by
  rw [← Char.ofNat_toNat c]
  exact hall c.toNat h

/-- In ASCII, upper case is that of the letters. -/
theorem upper_of_ascii {c : Char} (h : c.toNat < 128) : upper c = [c.toUpper] := by
  -- Only the run from `a` to `z` applies to the characters of ASCII.
  have hsequences : ∀ entry ∈ upperSequences, 128 ≤ entry.1 := by decide +kernel
  have hruns : ∀ run ∈ upperRuns, 128 ≤ run.first ∨
      run.first = 97 ∧ run.last = 122 ∧ run.shift = -32 := by decide +kernel
  have hletters : ∃ run ∈ upperRuns, run.first = 97 ∧ run.last = 122 ∧ run.stride = 1 := by
    decide +kernel
  have htoUpper : c.toUpper =
      if 97 ≤ c.toNat ∧ c.toNat ≤ 122 then Char.ofNat (c.toNat - 32) else c :=
    @forall_ascii (fun c => c.toUpper = if 97 ≤ c.toNat ∧ c.toNat ≤ 122 then
      Char.ofNat (c.toNat - 32) else c) (by decide +kernel) c h
  obtain ⟨entry, hentry, hkey, -⟩ | ⟨run, hrun, code, hshifted, hmapped⟩ | ⟨hnone, hmapped⟩ :=
    mapCase_cases upperSequences upperRuns c
  · have hbeyond := hsequences entry hentry
    omega
  · obtain ⟨hfirst, hlast, -, rfl⟩ := CaseRun.shifted?_eq_some hshifted
    obtain hbeyond | ⟨ha, hz, hshift⟩ := hruns run hrun
    · omega
    · have hcode : ((c.toNat : Int) + run.shift).toNat = c.toNat - 32 := by omega
      rw [upper, hmapped, hcode, htoUpper, if_pos (by omega)]
  · obtain ⟨run, hrun, ha, hz, hstride⟩ := hletters
    have hout : ¬ (97 ≤ c.toNat ∧ c.toNat ≤ 122) := by
      simpa [CaseRun.shifted?, ha, hz, hstride, Nat.mod_one] using hnone run hrun
    rw [upper, hmapped, htoUpper, if_neg hout]

/-! Texts. -/

section

variable {P : Char → Bool} (hlower : ∀ c, ∀ d ∈ lower c, d = c ∨ P d = true)
  (hsmall : P 'σ' = true) (hfinal : P 'ς' = true)
include hlower hsmall hfinal

/-- Lowering a character of a text leaves it or puts characters with the property in its place. -/
theorem exists_lowerAfter_cons (before : List Char) (c : Char) (rest : List Char) :
    ∃ mapped, lowerAfter before (c :: rest) = mapped ++ lowerAfter (c :: before) rest ∧
      mapped ≠ [] ∧ ∀ d ∈ mapped, d = c ∨ P d = true := by
  refine ⟨_, rfl, ?_⟩
  split
  next =>
    split
    next => simp [hfinal]
    next => simp [hsmall]
  next => exact ⟨lower_ne_nil c, hlower c⟩

theorem mem_or_of_mem_lowerAfter {before cs : List Char} {d : Char}
    (h : d ∈ lowerAfter before cs) : d ∈ cs ∨ P d = true := by
  induction cs generalizing before with
  | nil => simp [lowerAfter] at h
  | cons c rest ih =>
      obtain ⟨mapped, heq, -, hmapped⟩ :=
        exists_lowerAfter_cons hlower hsmall hfinal before c rest
      rw [heq] at h
      rcases List.mem_append.mp h with h | h
      · apply (hmapped d h).imp_left
        rintro rfl
        exact List.mem_cons_self
      · exact (ih h).imp_left (List.mem_cons_of_mem c)

theorem exists_mem_lowerAfter {before cs : List Char} {c : Char} (hc : c ∈ cs)
    (hP : P c = true) : ∃ d ∈ lowerAfter before cs, P d = true := by
  induction cs generalizing before with
  | nil => simp at hc
  | cons first rest ih =>
      obtain ⟨mapped, heq, hsome, hmapped⟩ :=
        exists_lowerAfter_cons hlower hsmall hfinal before first rest
      rw [heq]
      rcases List.mem_cons.mp hc with rfl | hc
      · obtain ⟨d, others, rfl⟩ := List.exists_cons_of_ne_nil hsome
        refine ⟨d, List.mem_append_left _ List.mem_cons_self, ?_⟩
        rcases hmapped d List.mem_cons_self with rfl | hd
        · exact hP
        · exact hd
      · obtain ⟨d, hd, hPd⟩ := @ih (first :: before) hc
        exact ⟨d, List.mem_append_right _ hd, hPd⟩

end

end ApiInterfaces.Unicode
