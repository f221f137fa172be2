import ApiInterfaces.Proofs.Decimal.Reading
import ApiInterfaces.Yaml.Text

/-!
The texts of numbers. A text with a point or an exponent stands for a decimal; the text of a
double stands for its shortest decimal, perhaps with a zero behind the point, and is therefore
read as the double.
-/

namespace ApiInterfaces.Yaml

/-! ### Digits -/

theorem isDigit_iff {c : Char} : c.isDigit = true ↔ 48 ≤ c.toNat ∧ c.toNat ≤ 57 := by
  rw [Char.isDigit, Bool.and_eq_true, decide_eq_true_iff, decide_eq_true_iff, ge_iff_le,
    UInt32.le_iff_toNat_le, UInt32.le_iff_toNat_le]
  rfl

theorem le_iff_toNat_le {c d : Char} : c ≤ d ↔ c.toNat ≤ d.toNat := by
  rw [Char.le_def, UInt32.le_iff_toNat_le]
  rfl

theorem hexDigit?_of_isDigit {c : Char} (h : c.isDigit = true) :
    Json.Token.hexDigit? c = some (c.toNat - 48) := by
  have hrange : '0' ≤ c ∧ c ≤ '9' := by
    rw [le_iff_toNat_le, le_iff_toNat_le]
    exact isDigit_iff.mp h
  rw [Json.Token.hexDigit?, if_pos hrange]

/-- The letters among the hexadecimal digits have the value ten at least. -/
theorem isDigit_of_hexDigit? {c : Char} {d : Nat} (h : Json.Token.hexDigit? c = some d)
    (hd : d < 10) : c.isDigit = true := by
  rw [isDigit_iff]
  unfold Json.Token.hexDigit? at h
  simp only [le_iff_toNat_le] at h
  have hbounds : '0'.toNat = 48 ∧ '9'.toNat = 57 ∧ 'a'.toNat = 97 ∧ 'A'.toNat = 65 := by decide
  split_ifs at h <;> simp only [Option.some.injEq] at h <;> omega

/-- Digits are read from the left, onto the value of those before. -/
theorem foldlM_digits {digits : List Char} (h : ∀ c ∈ digits, c.isDigit = true) (start : Nat) :
    digits.foldlM (fun n c => do
      let d ← Json.Token.hexDigit? c
      if d < 10 then some (10 * n + d) else none) start =
      some (Nat.ofDigitChars 10 digits start) := by
  induction digits generalizing start with
  | nil => rfl
  | cons c rest ih =>
      obtain ⟨hc, hrest⟩ := List.forall_mem_cons.mp h
      have hrange := isDigit_iff.mp hc
      rw [List.foldlM_cons, hexDigit?_of_isDigit hc]
      show (if c.toNat - 48 < 10 then some (10 * start + (c.toNat - 48)) else none).bind _ = _
      rw [if_pos (by omega), Option.bind_some, ih hrest, Nat.ofDigitChars_cons]
      rfl

theorem digits?_eq {digits : List Char} (hne : digits ≠ []) (h : ∀ c ∈ digits, c.isDigit = true) :
    digits? 10 digits = some (Nat.ofDigitChars 10 digits 0) := by
  rw [digits?, if_neg hne]
  exact foldlM_digits h 0

theorem isDigit_of_foldlM {text : List Char} {start n : Nat}
    (h : text.foldlM (fun n c => do
      let d ← Json.Token.hexDigit? c
      if d < 10 then some (10 * n + d) else none) start = some n) :
    ∀ c ∈ text, c.isDigit = true := by
  induction text generalizing start with
  | nil => simp
  | cons c rest ih =>
      rw [List.foldlM_cons] at h
      obtain ⟨next, hnext, hrest⟩ := Option.bind_eq_some_iff.mp h
      obtain ⟨d, hd, hvalue⟩ := Option.bind_eq_some_iff.mp hnext
      split at hvalue
      next hlt => exact List.forall_mem_cons.mpr ⟨isDigit_of_hexDigit? hd hlt, ih hrest⟩
      next => simp at hvalue

theorem isDigit_of_digits? {text : List Char} {n : Nat} (h : digits? 10 text = some n) :
    ∀ c ∈ text, c.isDigit = true := by
  unfold digits? at h
  split at h
  next => simp at h
  next => exact isDigit_of_foldlM h

/-! ### Decimals -/

/-- What may follow the digits behind a point: nothing, or an exponent. -/
inductive EndsIn : List Char → Int → Prop
  | nothing : EndsIn [] 0
  | power {text : List Char} {exponent : Int} (h : Json.Token.exponent? text = some exponent) :
      EndsIn ('e' :: text) exponent

/-- A text that writes a decimal: digits, a point with further digits, and an exponent, of which
one may be missing. -/
inductive Writes : List Char → Decimal → Prop
  | pointed {whole fraction behind : List Char} {exponent : Int} (hne : whole ≠ [])
      (hwhole : ∀ c ∈ whole, c.isDigit = true) (hfraction : ∀ c ∈ fraction, c.isDigit = true)
      (hbehind : EndsIn behind exponent) :
      Writes (whole ++ '.' :: (fraction ++ behind))
        ⟨Nat.ofDigitChars 10 (whole ++ fraction) 0, exponent - fraction.length⟩
  | integral {whole text : List Char} {exponent : Int} (hne : whole ≠ [])
      (hwhole : ∀ c ∈ whole, c.isDigit = true)
      (hpower : Json.Token.exponent? text = some exponent) :
      Writes (whole ++ 'e' :: text) ⟨Nat.ofDigitChars 10 whole 0, exponent⟩

theorem span_digits {front : List Char} (h : ∀ c ∈ front, c.isDigit = true) (behind : List Char)
    (hend : ∀ c ∈ behind.head?, c.isDigit = false) :
    (front ++ behind).takeWhile Char.isDigit = front ∧
      (front ++ behind).dropWhile Char.isDigit = behind := by
  rw [List.takeWhile_append_of_pos h, List.dropWhile_append_of_pos h]
  cases behind with
  | nil => simp
  | cons c rest => simp [hend c rfl]

theorem Writes.decimal?_eq {text : List Char} {d : Decimal} (h : Writes text d) (negative : Bool) :
    decimal? negative text = Binary64.ofDecimal? negative d.digits d.exponent := by
  cases h with
  | @pointed whole fraction behind exponent hne hwhole hfraction hbehind =>
      obtain ⟨htake, hdrop⟩ := span_digits hwhole ('.' :: (fraction ++ behind)) (by simp)
      have hend : ∀ c ∈ behind.head?, c.isDigit = false := by
        cases hbehind <;> simp
      obtain ⟨htake', hdrop'⟩ := span_digits hfraction behind hend
      have hdigits : digits? 10 (whole ++ fraction) =
          some (Nat.ofDigitChars 10 (whole ++ fraction) 0) :=
        digits?_eq (by simp [hne]) (List.forall_mem_append.mpr ⟨hwhole, hfraction⟩)
      unfold decimal?
      simp only [htake, hdrop, htake', hdrop', hdigits]
      rw [if_neg (by simp [hne])]
      cases hbehind with
      | nothing => rfl
      | power hpower =>
          simp only [hpower]
          rfl
  | @integral whole power exponent hne hwhole hpower =>
      obtain ⟨htake, hdrop⟩ := span_digits hwhole ('e' :: power) (by simp)
      have hdigits := digits?_eq hne hwhole
      unfold decimal?
      simp only [htake, hdrop]
      rw [if_neg (by simp [hne])]
      show (Json.Token.exponent? power).bind (fun e => (digits? 10 (whole ++ [])).bind fun n =>
        Binary64.ofDecimal? negative n (e - ((0 : Nat) : Int))) = _
      rw [hpower, List.append_nil, hdigits, Option.bind_some, Option.bind_some, Nat.cast_zero,
        sub_zero]

/-! ### The text of a double -/

theorem isDigit_toDigits (n : Nat) : ∀ c ∈ Nat.toDigits 10 n, c.isDigit = true := fun _ hc =>
  Nat.isDigit_of_mem_toDigits (by decide) (by decide) hc

theorem isDigit_zeros (n : Nat) : ∀ c ∈ List.replicate n '0', c.isDigit = true := by
  intro c hc
  rw [List.eq_of_mem_replicate hc]
  rfl

section

variable (d : Decimal)

/-- A decimal without a fraction, with zeros up to its point and one behind it. -/
theorem exists_writes_whole (h : 0 ≤ d.exponent) :
    ∃ e, Writes (Nat.toDigits 10 d.digits ++ List.replicate d.exponent.toNat '0' ++ ['.', '0']) e ∧
      e.value = d.value := by
  have hfraction : ∀ c ∈ ['0'], c.isDigit = true := by simp
  have hwhole := List.forall_mem_append.mpr
    ⟨isDigit_toDigits d.digits, isDigit_zeros d.exponent.toNat⟩
  refine ⟨_, .pointed (by simp [Nat.toDigits_ne_nil]) hwhole hfraction .nothing, ?_⟩
  have hdigits : Nat.ofDigitChars 10
      (Nat.toDigits 10 d.digits ++ List.replicate d.exponent.toNat '0' ++ ['0']) 0 =
      10 * (10 ^ d.exponent.toNat * d.digits) := by
    rw [Nat.ofDigitChars_append, Nat.ofDigitChars_append, Nat.ofDigitChars_ten_toDigits,
      Nat.ofDigitChars_replicate_zero, Nat.ofDigitChars_cons, Nat.ofDigitChars_nil]
    rfl
  have hpower : (10 : ℚ) ^ d.exponent = 10 ^ d.exponent.toNat := by
    rw [← zpow_natCast, Int.toNat_of_nonneg h]
  rw [Decimal.value, Decimal.value, hdigits, hpower]
  push_cast
  norm_num
  ring

/-- A decimal with its point between two of its digits. -/
theorem writes_between (hexponent : d.exponent < 0) (h : 0 ≤ d.leadingExponent) :
    Writes ((Nat.toDigits 10 d.digits).take (d.leadingExponent.toNat + 1) ++
      '.' :: (Nat.toDigits 10 d.digits).drop (d.leadingExponent.toNat + 1)) d := by
  set digits := Nat.toDigits 10 d.digits with hset
  set front := digits.take (d.leadingExponent.toNat + 1)
  set behind := digits.drop (d.leadingExponent.toNat + 1)
  have hdigits : ∀ c ∈ digits, c.isDigit = true := isDigit_toDigits d.digits
  have hfront : front ≠ [] := by simp [front, hset, Nat.toDigits_ne_nil]
  have hwrites : Writes (front ++ '.' :: (behind ++ []))
      ⟨Nat.ofDigitChars 10 (front ++ behind) 0, 0 - behind.length⟩ :=
    .pointed hfront (fun c hc => hdigits c (List.mem_of_mem_take hc))
      (fun c hc => hdigits c (List.mem_of_mem_drop hc)) .nothing
  have hexponent' : (0 : Int) - behind.length = d.exponent := by
    rw [Decimal.leadingExponent, ← hset] at h
    rw [List.length_drop, Decimal.leadingExponent, ← hset]
    omega
  rwa [List.take_append_drop, Nat.ofDigitChars_ten_toDigits, List.append_nil, hexponent']
    at hwrites

/-- A decimal with its point in front of its digits. -/
theorem writes_below (h : d.leadingExponent < 0) :
    Writes ('0' :: '.' :: List.replicate (-d.leadingExponent - 1).toNat '0' ++
      Nat.toDigits 10 d.digits) d := by
  set fraction := List.replicate (-d.leadingExponent - 1).toNat '0' ++ Nat.toDigits 10 d.digits
  have hwrites : Writes (['0'] ++ '.' :: (fraction ++ []))
      ⟨Nat.ofDigitChars 10 (['0'] ++ fraction) 0, 0 - fraction.length⟩ :=
    .pointed (by simp) (by simp)
      (List.forall_mem_append.mpr ⟨isDigit_zeros _, isDigit_toDigits d.digits⟩) .nothing
  have hvalue : Nat.ofDigitChars 10 (['0'] ++ fraction) 0 = d.digits := by
    rw [Nat.ofDigitChars_append, Nat.ofDigitChars_append, Nat.ofDigitChars_cons,
      Nat.ofDigitChars_nil, Nat.ofDigitChars_replicate_zero]
    simp
  have hexponent : (0 : Int) - fraction.length = d.exponent := by
    rw [List.length_append, List.length_replicate]
    rw [Decimal.leadingExponent] at h ⊢
    omega
  rw [hvalue, hexponent] at hwrites
  simpa [fraction] using hwrites

/-- A decimal with its point behind the first digit, and one that has no other digits. -/
theorem writes_scientific {text : List Char}
    (hpower : Json.Token.exponent? text = some d.leadingExponent) :
    Writes ((match Nat.toDigits 10 d.digits with
      | first :: [] => [first]
      | first :: rest => first :: '.' :: rest
      | [] => []) ++ 'e' :: text) d := by
  have hdigits := isDigit_toDigits d.digits
  have hvalue : Nat.ofDigitChars 10 (Nat.toDigits 10 d.digits) 0 = d.digits :=
    Nat.ofDigitChars_ten_toDigits
  rw [Decimal.leadingExponent] at hpower
  split
  next first hfirst =>
    rw [hfirst] at hdigits hvalue hpower
    have hwrites := Writes.integral (by simp) hdigits hpower
    rwa [hvalue, List.length_singleton, Nat.cast_one, sub_self, zero_add] at hwrites
  next first rest _ hfirst =>
    rw [hfirst] at hdigits hvalue hpower
    obtain ⟨hhead, hrest⟩ := List.forall_mem_cons.mp hdigits
    have hwrites := Writes.pointed (List.cons_ne_nil first [])
      (List.forall_mem_singleton.mpr hhead) hrest (.power hpower)
    rwa [List.singleton_append, List.singleton_append, hvalue, List.length_cons, Nat.cast_succ,
      add_sub_cancel_right, add_sub_cancel_left] at hwrites
  next hnil => exact absurd hnil Nat.toDigits_ne_nil

end

theorem toList_repr (n : Nat) : (Nat.repr n).toList = Nat.toDigits 10 n := by
  rw [Nat.repr_eq_ofList_toDigits, String.toList_ofList]

theorem positive_toDigits (n : Nat) :
    Json.Token.exponent?.positive (Nat.toDigits 10 n) = some (n : Int) := by
  have hdigits : (Nat.toDigits 10 n).all Char.isDigit = true :=
    List.all_eq_true.mpr (isDigit_toDigits n)
  have hvalue : (Nat.toDigits 10 n).foldl (fun n c => 10 * n + Json.Token.digitValue c) 0 = n :=
    Nat.ofDigitChars_ten_toDigits
  rw [Json.Token.exponent?.positive, if_pos ⟨Nat.toDigits_ne_nil, hdigits⟩, hvalue]

/-- The exponent of a text is read back. -/
theorem exponent?_power (k : Int) :
    Json.Token.exponent? (if k < 0 then "-" ++ Nat.repr (-k).toNat
      else Double.layout.positiveSign ++ Nat.repr k.toNat).toList = some k := by
  split
  next hneg =>
    have hvalue : -(((-k).toNat : Nat) : Int) = k := by omega
    rw [String.toList_append, toList_repr]
    show (- ·) <$> Json.Token.exponent?.positive (Nat.toDigits 10 (-k).toNat) = some k
    rw [positive_toDigits, Option.map_eq_map, Option.map_some, hvalue]
  next hpos =>
    have hvalue : ((k.toNat : Nat) : Int) = k := by omega
    have hnosign : Json.Token.exponent? (Nat.toDigits 10 k.toNat) =
        Json.Token.exponent?.positive (Nat.toDigits 10 k.toNat) := by
      have hdigit := isDigit_toDigits k.toNat
      unfold Json.Token.exponent?
      split
      next rest hplus => exact absurd (hdigit '+' (by simp [hplus])) (by decide)
      next rest hminus => exact absurd (hdigit '-' (by simp [hminus])) (by decide)
      next => rfl
    rw [String.toList_append, toList_repr]
    show Json.Token.exponent? (Nat.toDigits 10 k.toNat) = some k
    rw [hnosign, positive_toDigits, hvalue]

/-- A number other than zero is laid out as a decimal of the value of its shortest one. -/
theorem exists_writes_of_pos {x : Binary64} (hpos : 0 < x.significand) :
    ∃ body d, (Double.layout.text x).toList = (if x.negative then ['-'] else []) ++ body ∧
      Writes body d ∧ d.value = x.shortest.value := by
  have hsign : (if x.negative = true then "-" else "").toList =
      if x.negative = true then ['-'] else [] := by
    split <;> rfl
  have hzero : ¬ x.isZero = true := by
    rw [Binary64.isZero, beq_iff_eq]
    exact hpos.ne'
  unfold DecimalLayout.text
  dsimp only
  rw [if_neg hzero, String.toList_append, hsign, String.toList_ofList]
  generalize (if x.negative = true then ['-'] else []) = sign
  split
  next =>
    split
    next hwhole =>
      obtain ⟨d, hwrites, hvalue⟩ := exists_writes_whole x.shortest hwhole
      exact ⟨_, d, rfl, hwrites, hvalue⟩
    next hfraction =>
      split
      next hleading => exact ⟨_, _, rfl, writes_between _ (not_le.mp hfraction) hleading, rfl⟩
      next hleading => exact ⟨_, _, rfl, writes_below _ (not_le.mp hleading), rfl⟩
  next => exact ⟨_, _, rfl, writes_scientific _ (exponent?_power _), rfl⟩

/-- The text of a number writes, behind its sign, a decimal that is read as the number. -/
theorem exists_writes_text {x : Binary64} (hx : x.IsNumber) :
    ∃ body d, (Double.layout.text x).toList = (if x.negative then ['-'] else []) ++ body ∧
      Writes body d ∧ Binary64.ofDecimal? x.negative d.digits d.exponent = some x := by
  rcases Nat.eq_zero_or_pos x.significand with hzero | hpos
  · refine ⟨['0', '.', '0'], _, ?_, @Writes.pointed ['0'] ['0'] [] 0 (by simp) (by simp) (by simp)
      .nothing, ?_⟩
    · cases hsign : x.negative <;> simp [DecimalLayout.text, Binary64.isZero, hzero, hsign]
    · rw [hx.eq_zero hzero]
      rfl
  · obtain ⟨body, d, htext, hwrites, hvalue⟩ := exists_writes_of_pos hpos
    exact ⟨body, d, htext, hwrites, Binary64.ofDecimal?_of_value_eq_shortest hx hpos hvalue⟩

end ApiInterfaces.Yaml
