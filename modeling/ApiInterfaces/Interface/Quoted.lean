import ApiInterfaces.Text.Pieces

/-!
Quoted texts and member keys. Inside quotes a backslash and the quote itself are preceded by a
backslash; a key is quoted unless it is a plain word.
-/

namespace ApiInterfaces.Quoted

/-- Doubles the backslashes, and then puts one in front of each quote. -/
def escape (quote : Char) (text : List Char) : List Char :=
  Text.replaceChar quote ['\\', quote] (Text.replaceChar '\\' ['\\', '\\'] text)

@[simp] theorem escape_nil (quote : Char) : escape quote [] = [] := rfl

/-- The two passes do what one does that puts a backslash in front of backslashes and quotes. -/
theorem escape_cons {quote : Char} (hq : quote ≠ '\\') (c : Char) (rest : List Char) :
    escape quote (c :: rest) =
      if c = '\\' ∨ c = quote then '\\' :: c :: escape quote rest else c :: escape quote rest := by
  unfold escape
  by_cases hback : c = '\\'
  · rw [if_pos (.inl hback), hback, Text.replaceChar_cons_self, List.cons_append, List.cons_append,
      Text.replaceChar_cons_of_ne hq.symm, Text.replaceChar_cons_of_ne hq.symm, List.nil_append]
  · rw [Text.replaceChar_cons_of_ne hback]
    by_cases hc : c = quote
    · rw [if_pos (.inr hc), hc, Text.replaceChar_cons_self]
      rfl
    · rw [if_neg (not_or.mpr ⟨hback, hc⟩), Text.replaceChar_cons_of_ne hc]

/-- Reads the escapes and stops after the closing quote. -/
def read? (quote : Char) : List Char → Option (List Char × List Char)
  | [] => none
  | '\\' :: c :: rest => (read? quote rest).map fun (text, after) => (c :: text, after)
  | c :: rest =>
    if c = quote then some ([], rest)
    else (read? quote rest).map fun (text, after) => (c :: text, after)

/-- What is read back is the text that was escaped. -/
theorem read?_escape {quote : Char} (hq : quote ≠ '\\') (text rest : List Char) :
    read? quote (escape quote text ++ quote :: rest) = some (text, rest) := by
  induction text with
  | nil =>
    rw [escape_nil, List.nil_append]
    unfold read?
    split
    · simp at *
    · simp_all
    · simp_all
  | cons c text ih =>
    rw [escape_cons hq]
    split
    · simp [read?, ih]
    · rename_i h
      obtain ⟨hb, hc⟩ := not_or.1 h
      rw [List.cons_append, read?]
      · simp [hc, ih]
      · simp [hb]

/-- A plain word has letters, digits, `_` and `$` of ASCII only and does not begin with a digit. -/
def isWordChar (c : Char) : Bool := c.isAlphanum || c = '_' || c = '$'

def isWordStart (c : Char) : Bool := c.isAlpha || c = '_' || c = '$'

def isWord : List Char → Bool
  | [] => false
  | c :: rest => isWordStart c && (c :: rest).all isWordChar

/-- `text` between quotes. -/
def quoted (quote : Char) (text : List Char) : List Char := quote :: escape quote text ++ [quote]

/-- The key of a member in an interface. -/
def key (name : String) : String :=
  if isWord name.toList then name else String.ofList (quoted '"' name.toList)

def literal (text : String) : String := String.ofList (quoted '\'' text.toList)

end ApiInterfaces.Quoted
