import ApiInterfaces.Naming.Registry
import Mathlib.Data.List.Nodup

/-!
A claimed name is new. The search for a number among as many candidates as
there are names cannot fail: the base is taken and the candidates are pairwise
distinct, so the names do not hold all of them.
-/

namespace ApiInterfaces.Naming.Registry

theorem toList_numbered (base : String) (n : Nat) :
    (numbered base n).toList = base.toList ++ Nat.toDigits 10 n := by
  simp [numbered]

theorem numbered_injective (base : String) : Function.Injective (numbered base) := by
  intro m n h
  have hlists := congrArg String.toList h
  rw [toList_numbered, toList_numbered] at hlists
  have hdigits : Nat.toDigits 10 m = Nat.toDigits 10 n := List.append_cancel_left hlists
  calc
    m = Nat.ofDigitChars 10 (Nat.toDigits 10 m) 0 := Nat.ofDigitChars_ten_toDigits.symm
    _ = Nat.ofDigitChars 10 (Nat.toDigits 10 n) 0 := by rw [hdigits]
    _ = n := Nat.ofDigitChars_ten_toDigits

theorem numbered_ne_base (base : String) (n : Nat) : numbered base n ≠ base := by
  intro h
  have hlists := congrArg String.toList h
  rw [toList_numbered] at hlists
  have hempty : Nat.toDigits 10 n = [] := List.append_right_eq_self.mp hlists
  exact Nat.toDigits_ne_nil hempty

/-- The base and the candidates are one name more than there are, hence one of
them is not among the names. -/
theorem exists_free_number {r : Registry} {base : String} (h : base ∈ r.names) :
    ∃ n < r.names.length, numbered base n ∉ r.names := by
  by_contra hall
  push Not at hall
  have hnodup : (base :: (List.range r.names.length).map (numbered base)).Nodup := by
    refine List.nodup_cons.mpr ⟨?_, List.nodup_range.map (numbered_injective base)⟩
    intro hmem
    obtain ⟨n, -, hn⟩ := List.mem_map.mp hmem
    exact numbered_ne_base base n hn
  have hsubset : base :: (List.range r.names.length).map (numbered base) ⊆ r.names := by
    intro name hname
    rcases List.mem_cons.mp hname with rfl | hname
    · exact h
    · obtain ⟨n, hn, rfl⟩ := List.mem_map.mp hname
      exact hall n (List.mem_range.mp hn)
  have hlength := hnodup.length_le_of_subset hsubset
  simp only [List.length_cons, List.length_map, List.length_range] at hlength
  omega

/-- The number found is below the number of names, and the least one that makes a new name. -/
theorem leastFree_spec {r : Registry} {base : String} (h : base ∈ r.names) :
    r.leastFree base < r.names.length ∧ numbered base (r.leastFree base) ∉ r.names ∧
      ∀ n < r.leastFree base, numbered base n ∈ r.names := by
  obtain ⟨n, hn, hfree⟩ := exists_free_number h
  cases hfind : (List.range r.names.length).find? fun n => !r.contains (numbered base n) with
  | none =>
      have hall := List.find?_eq_none.mp hfind n (List.mem_range.mpr hn)
      simp [contains, hfree] at hall
  | some m =>
      obtain ⟨hm, hrange, hbelow⟩ := List.find?_range_eq_some.mp hfind
      have hleast : r.leastFree base = m := by rw [leastFree, hfind, Option.getD_some]
      rw [hleast]
      refine ⟨List.mem_range.mp hrange, by simpa [contains] using hm, fun k hk => ?_⟩
      simpa [contains] using hbelow k hk

theorem fresh_not_mem (r : Registry) (base : String) : r.fresh base ∉ r.names := by
  unfold fresh
  split
  next htaken =>
    have hbase : base ∈ r.names := by simpa [contains] using htaken
    exact (leastFree_spec hbase).2.1
  next hfree => simpa [contains] using hfree

/-- Names that are pairwise distinct stay so when another is claimed. -/
theorem nodup_names_claim {r : Registry} (h : r.names.Nodup) (base : String) :
    (r.claim base).2.names.Nodup := by
  rw [names_claim, ← List.concat_eq_append]
  exact h.concat (fresh_not_mem r base)

end ApiInterfaces.Naming.Registry
