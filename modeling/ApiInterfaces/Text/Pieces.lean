/-!
Cutting a text into pieces and joining texts.
-/

namespace ApiInterfaces.Text

/-- Adds a character to the first piece, or begins the only one. -/
def pushFirst (c : Char) : List (List Char) → List (List Char)
  | [] => [[c]]
  | piece :: rest => (c :: piece) :: rest

/-- The lines that line feeds end, each with the carriage return just before its line feed if there
is one. A carriage return elsewhere ends no line, and a line feed at the end opens no further one. -/
def feedLines : List Char → List (List Char)
  | [] => []
  | '\n' :: rest => [] :: feedLines rest
  | '\r' :: '\n' :: rest => [] :: feedLines rest
  | c :: rest => pushFirst c (feedLines rest)

/-- No line holds a line feed. -/
theorem not_mem_of_mem_feedLines {cs line : List Char} (h : line ∈ feedLines cs) : '\n' ∉ line := by
  fun_induction feedLines cs generalizing line with
  | case1 => simp at h
  | case2 rest ih =>
    rcases List.mem_cons.1 h with rfl | h
    · simp
    · exact ih h
  | case3 rest ih =>
    rcases List.mem_cons.1 h with rfl | h
    · simp
    · exact ih h
  | case4 c rest hn _ ih =>
    have hc : '\n' ≠ c := fun hc => hn hc.symm
    cases hl : feedLines rest with
    | nil => simp [pushFirst, hl] at h; subst h; simpa using hc
    | cons first others =>
      simp only [pushFirst, hl, List.mem_cons] at h
      rcases h with rfl | h
      · simpa [hc] using @ih first (by simp [hl])
      · exact ih (by simp [hl, h])

theorem length_pushFirst (c : Char) {pieces : List (List Char)} (h : pieces ≠ []) :
    (pushFirst c pieces).length = pieces.length := by
  cases pieces with
  | nil => exact absurd rfl h
  | cons piece rest => rfl

/-- The parts of a text between the occurrences of a character, at least one. -/
def split (separator : Char) : List Char → List (List Char)
  | [] => [[]]
  | c :: rest =>
    if c = separator then [] :: split separator rest else pushFirst c (split separator rest)

theorem split_ne_nil (separator : Char) (cs : List Char) : split separator cs ≠ [] := by
  cases cs with
  | nil => simp [split]
  | cons c rest =>
    simp only [split]
    split
    · simp
    · cases split separator rest <;> simp [pushFirst]

/-- Writes `replacement` for each `c`. -/
def replaceChar (c : Char) (replacement : List Char) (text : List Char) : List Char :=
  text.flatMap fun d => if d = c then replacement else [d]

theorem replaceChar_cons_self (c : Char) (replacement rest : List Char) :
    replaceChar c replacement (c :: rest) = replacement ++ replaceChar c replacement rest := by
  simp [replaceChar]

theorem replaceChar_cons_of_ne {c d : Char} (h : d ≠ c) (replacement rest : List Char) :
    replaceChar c replacement (d :: rest) = d :: replaceChar c replacement rest := by
  simp [replaceChar, h]

/-- Nothing is lost if what is written for a character holds it. -/
theorem subset_replaceChar {c : Char} {replacement : List Char} (h : c ∈ replacement)
    (text : List Char) : text ⊆ replaceChar c replacement text := by
  intro d hd
  refine List.mem_flatMap.mpr ⟨d, hd, ?_⟩
  by_cases hc : d = c
  · rwa [if_pos hc, hc]
  · rw [if_neg hc]
    exact List.mem_singleton.mpr rfl

end ApiInterfaces.Text
