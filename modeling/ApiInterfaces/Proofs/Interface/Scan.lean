import ApiInterfaces.Interface.Quoted
import Mathlib.Data.List.Chain

/-!
A scanner for texts with quotes and comments. Quoted texts are opaque, and a comment
goes as far as the first end mark behind its start. A part of a text is read by
itself where what stands behind it makes no difference to the reading.
-/

namespace ApiInterfaces.Scan

/-- What a scanned text consists of. -/
inductive Piece where
  | plain (c : Char)
  /-- A text with its quotes. -/
  | quoted (text : List Char)
  /-- A comment with its marks. -/
  | comment (text : List Char)

namespace Piece

def text : Piece → List Char
  | .plain c => [c]
  | .quoted text | .comment text => text

def comment? : Piece → Option (List Char)
  | .comment text => some text
  | .plain _ | .quoted _ => none

end Piece

/-- Cuts a text behind the first end of a comment. -/
def throughEnd : List Char → List Char × List Char
  | '*' :: '/' :: rest => (['*', '/'], rest)
  | c :: rest => (c :: (throughEnd rest).1, (throughEnd rest).2)
  -- A comment that is not ended takes all that is left.
  | [] => ([], [])

/-- Cuts a text behind the first quote that no backslash stands before. -/
def throughQuote (quote : Char) : List Char → List Char × List Char
  | '\\' :: c :: rest => ('\\' :: c :: (throughQuote quote rest).1, (throughQuote quote rest).2)
  | c :: rest =>
    if c = quote then ([c], rest)
    else (c :: (throughQuote quote rest).1, (throughQuote quote rest).2)
  | [] => ([], [])

theorem throughEnd_append (cs : List Char) : (throughEnd cs).1 ++ (throughEnd cs).2 = cs := by
  fun_induction throughEnd cs with
  | case1 rest => rfl
  | case2 c rest _ ih => rw [List.cons_append, ih]
  | case3 => rfl

theorem throughQuote_append (quote : Char) (cs : List Char) :
    (throughQuote quote cs).1 ++ (throughQuote quote cs).2 = cs := by
  fun_induction throughQuote quote cs with
  | case1 c rest ih => rw [List.cons_append, List.cons_append, ih]
  | case2 rest => rfl
  | case3 c rest _ hc ih => rw [List.cons_append, ih]
  | case4 => rfl

theorem length_throughEnd_le (cs : List Char) : (throughEnd cs).2.length ≤ cs.length := by
  have hlength := congrArg List.length (throughEnd_append cs)
  rw [List.length_append] at hlength
  omega

theorem length_throughQuote_le (quote : Char) (cs : List Char) :
    (throughQuote quote cs).2.length ≤ cs.length := by
  have hlength := congrArg List.length (throughQuote_append quote cs)
  rw [List.length_append] at hlength
  omega

/-- The pieces of a text. -/
def scan : List Char → List Piece
  | [] => []
  | '/' :: '*' :: rest =>
    have := length_throughEnd_le rest
    .comment ('/' :: '*' :: (throughEnd rest).1) :: scan (throughEnd rest).2
  | c :: rest =>
    if c = '\'' ∨ c = '"' then
      have := length_throughQuote_le c rest
      .quoted (c :: (throughQuote c rest).1) :: scan (throughQuote c rest).2
    else .plain c :: scan rest
termination_by cs => cs.length
decreasing_by all_goals (simp only [List.length_cons]; omega)

/-- No character is lost. -/
theorem flatMap_text_scan (cs : List Char) : (scan cs).flatMap Piece.text = cs := by
  fun_induction scan cs with
  | case1 => rfl
  | case2 rest _ ih =>
      rw [List.flatMap_cons, ih]
      simp [Piece.text, throughEnd_append]
  | case3 c rest _ hc _ ih =>
      rw [List.flatMap_cons, ih]
      simp [Piece.text, throughQuote_append]
  | case4 c rest _ hc ih =>
      rw [List.flatMap_cons, ih]
      rfl

/-- The comments among pieces. -/
def comments (pieces : List Piece) : List (List Char) := pieces.filterMap Piece.comment?

theorem comments_append (pieces others : List Piece) :
    comments (pieces ++ others) = comments pieces ++ comments others :=
  List.filterMap_append

theorem comments_eq_nil {pieces : List Piece} (h : ∀ piece ∈ pieces, piece.comment? = none) :
    comments pieces = [] :=
  List.filterMap_eq_nil_iff.mpr h

/-- The text without its comments. A comment takes the indentation before it and the
line break after it with it. The indentation of the line is `held` back as long as
nothing else has been read on it. -/
def uncomment (held : Option (List Char)) : List Piece → List Char
  | [] => held.getD []
  -- What is held back goes with the comment.
  | .comment _ :: .plain '\n' :: rest => uncomment (some []) rest
  | .comment _ :: rest => uncomment none rest
  | .quoted text :: rest => held.getD [] ++ text ++ uncomment none rest
  | .plain c :: rest =>
    if c = '\n' then held.getD [] ++ c :: uncomment (some []) rest
    else if c = ' ' ∧ held.isSome then uncomment (held.map (· ++ [c])) rest
    else held.getD [] ++ c :: uncomment none rest

/-! Ends of comments. -/

/-- There is no end of a comment in the text. -/
def Unended (text : List Char) : Prop := text.IsChain fun c d => ¬ (c = '*' ∧ d = '/')

/-- The comment has an end mark at its end, and no other. -/
def EndsOnce (comment : List Char) : Prop :=
  ∃ text, comment = text ++ ['*', '/'] ∧
    ∀ before after, comment = before ++ '*' :: '/' :: after → before = text

instance (text : List Char) : Decidable (Unended text) :=
  inferInstanceAs (Decidable (text.IsChain fun c d => ¬ (c = '*' ∧ d = '/')))

theorem unended_of_not_mem {text : List Char} (h : '*' ∉ text) : Unended text := by
  induction text with
  | nil => exact .nil
  | cons c text ih =>
      refine (ih (List.not_mem_of_not_mem_cons h)).cons fun d _ => ?_
      rintro ⟨rfl, -⟩
      exact h List.mem_cons_self

/-- An end of a comment arises where two texts meet only if the first ends with a star
and the second begins with a slash. -/
theorem Unended.append {text more : List Char} (h : Unended text) (h' : Unended more)
    (hjoin : text.getLast? = some '*' → more.head? ≠ some '/') : Unended (text ++ more) := by
  refine List.isChain_append.mpr ⟨h, h', fun c hc d hd => ?_⟩
  rintro ⟨rfl, rfl⟩
  exact hjoin hc hd

theorem Unended.throughEnd_append {text : List Char} (h : Unended text) (rest : List Char) :
    throughEnd (text ++ '*' :: '/' :: rest) = (text ++ ['*', '/'], rest) := by
  induction text with
  | nil => rfl
  | cons c text ih =>
      rw [List.cons_append, throughEnd, ih h.tail]
      · rfl
      · -- An end here would be one in the text, or be made of two stars.
        rintro after rfl hstart
        cases text with
        | nil => simp at hstart
        | cons d text =>
            obtain ⟨rfl, -⟩ := List.cons.inj hstart
            exact (List.isChain_cons_cons.mp h).1 ⟨rfl, rfl⟩

theorem Unended.endsOnce {text : List Char} (h : Unended text) : EndsOnce (text ++ ['*', '/']) := by
  refine ⟨text, rfl, fun before after heq => ?_⟩
  induction text generalizing before with
  | nil =>
      have hlength := congrArg List.length heq
      cases before with
      | nil => rfl
      | cons c before =>
          simp only [List.length_append, List.length_cons, List.length_nil] at hlength
          omega
  | cons c text ih =>
      cases before with
      | nil =>
          obtain ⟨rfl, hrest⟩ := List.cons.inj heq
          cases text with
          | nil => simp at hrest
          | cons d text =>
              obtain ⟨rfl, -⟩ := List.cons.inj hrest
              exact absurd ⟨rfl, rfl⟩ (List.isChain_cons_cons.mp h).1
      | cons d before =>
          obtain ⟨rfl, hrest⟩ := List.cons.inj heq
          rw [ih h.tail before hrest]

/-! Parts of a text that are read by themselves. -/

/-- The text is read as the given pieces, whatever stands behind it. -/
def ReadsAs (text : List Char) (pieces : List Piece) : Prop :=
  ∀ rest, scan (text ++ rest) = pieces ++ scan rest

namespace ReadsAs

variable {text more : List Char} {pieces others : List Piece}

theorem nil : ReadsAs [] [] := fun _ => rfl

theorem append (h : ReadsAs text pieces) (h' : ReadsAs more others) :
    ReadsAs (text ++ more) (pieces ++ others) := fun rest => by
  rw [List.append_assoc, h, h', List.append_assoc]

theorem scan_eq (h : ReadsAs text pieces) : scan text = pieces := by
  simpa [scan] using h []

theorem plain {c : Char} (h : c ≠ '/' ∧ c ≠ '\'' ∧ c ≠ '"') :
    ReadsAs [c] [.plain c] := fun rest => by
  obtain ⟨hslash, hsingle, hdouble⟩ := h
  rw [List.singleton_append, scan]
  · rw [if_neg (by simp [hsingle, hdouble])]
    rfl
  · intro after hstart
    exact absurd hstart hslash

theorem throughQuote_escape {quote : Char} (hquote : quote ≠ '\\') (text rest : List Char) :
    throughQuote quote (Quoted.escape quote text ++ quote :: rest) =
      (Quoted.escape quote text ++ [quote], rest) := by
  induction text with
  | nil =>
      rw [Quoted.escape_nil, List.nil_append, throughQuote, if_pos rfl]
      · rfl
      · intro c after hstart
        exact absurd hstart hquote
  | cons c text ih =>
      rw [Quoted.escape_cons hquote]
      split
      next h => simp [throughQuote, ih]
      next h =>
        obtain ⟨hslash, hc⟩ := not_or.mp h
        rw [List.cons_append, throughQuote, if_neg hc, ih]
        · rfl
        · intro c after hstart
          exact absurd hstart hslash

/-- A quoted text is read as one piece, up to the quote that ends it. -/
theorem quoted {quote : Char} (h : quote = '\'' ∨ quote = '"') (text : List Char) :
    ReadsAs (Quoted.quoted quote text) [.quoted (Quoted.quoted quote text)] := fun rest => by
  have hslash : quote ≠ '/' := by rcases h with rfl | rfl <;> decide
  have hback : quote ≠ '\\' := by rcases h with rfl | rfl <;> decide
  have htext : Quoted.quoted quote text ++ rest =
      quote :: (Quoted.escape quote text ++ quote :: rest) := by
    simp [Quoted.quoted]
  rw [htext, scan]
  · rw [if_pos h, throughQuote_escape hback]
    rfl
  · intro after hstart
    exact absurd hstart hslash

theorem comment {text : List Char} (h : Unended ('/' :: '*' :: text)) :
    ReadsAs ('/' :: '*' :: text ++ ['*', '/']) [.comment ('/' :: '*' :: text ++ ['*', '/'])] :=
  fun rest => by
    have htext : '/' :: '*' :: text ++ ['*', '/'] ++ rest =
        '/' :: '*' :: (text ++ '*' :: '/' :: rest) := by
      simp
    have hinside : Unended text := h.tail.tail
    rw [htext, scan, hinside.throughEnd_append]
    rfl

end ReadsAs

/-- The text is read by itself, as pieces with the property. -/
def ReadsAll (P : Piece → Prop) (text : List Char) : Prop :=
  ∃ pieces, ReadsAs text pieces ∧ ∀ piece ∈ pieces, P piece

namespace ReadsAll

variable {P : Piece → Prop} {text more : List Char}

theorem nil : ReadsAll P [] := ⟨[], .nil, by simp⟩

theorem append (h : ReadsAll P text) (h' : ReadsAll P more) : ReadsAll P (text ++ more) := by
  obtain ⟨pieces, hreads, hall⟩ := h
  obtain ⟨others, hreads', hall'⟩ := h'
  exact ⟨pieces ++ others, hreads.append hreads', List.forall_mem_append.mpr ⟨hall, hall'⟩⟩

theorem quoted {quote : Char} (h : quote = '\'' ∨ quote = '"') {text : List Char}
    (hpiece : P (.quoted (Quoted.quoted quote text))) : ReadsAll P (Quoted.quoted quote text) :=
  ⟨_, .quoted h text, by simpa using hpiece⟩

theorem of_mem_scan (h : ReadsAll P text) : ∀ piece ∈ scan text, P piece := by
  obtain ⟨pieces, hreads, hall⟩ := h
  rwa [hreads.scan_eq]

end ReadsAll

/-! Text without comments. -/

/-- The text is read by itself, and there are no comments in it. -/
def IsCode (text : List Char) : Prop :=
  ∃ pieces, ReadsAs text pieces ∧ ∀ piece ∈ pieces, piece.comment? = none

/-- The characters that begin neither a comment nor a quoted text. -/
def isInert (c : Char) : Bool := c ≠ '/' ∧ c ≠ '\'' ∧ c ≠ '"'

/-- No character of a class is one of the marks, if none of these belongs to it. -/
theorem not_mem_of_class {p : Char → Bool} {c : Char} {marks : List Char} (hc : p c = true)
    (hmarks : marks.all (fun d => !p d) = true) : c ∉ marks := fun hmem => by
  simpa [hc] using List.all_eq_true.mp hmarks c hmem

/-- A class without the slash and the quotes consists of inert characters. -/
theorem isInert_of_class {p : Char → Bool} (h : ['/', '\'', '"'].all (fun d => !p d) = true)
    {c : Char} (hc : p c = true) : isInert c = true := by
  simpa [isInert] using not_mem_of_class hc h

/-- A text is read character by character where no character begins a comment or a quoted
text. -/
theorem ReadsAll.of_inert {P : Piece → Prop} {text : List Char}
    (h : ∀ c ∈ text, isInert c = true ∧ P (.plain c)) : ReadsAll P text := by
  induction text with
  | nil => exact nil
  | cons c rest ih =>
      obtain ⟨⟨hinert, hpiece⟩, hrest⟩ := List.forall_mem_cons.mp h
      have hc : ReadsAs [c] [.plain c] := .plain (by simpa [isInert] using hinert)
      exact append ⟨[.plain c], hc, by simpa using hpiece⟩ (ih hrest)

namespace IsCode

variable {text more : List Char}

theorem append (h : IsCode text) (h' : IsCode more) : IsCode (text ++ more) :=
  ReadsAll.append h h'

theorem of_inert (h : text.all isInert = true) : IsCode text :=
  ReadsAll.of_inert fun c hc => ⟨List.all_eq_true.mp h c hc, rfl⟩

end IsCode

/-! Lines of text and the comments between them. -/

/-- The text consists of whole lines. It is read by itself, its comments are the given
ones, and without them it is `bare`. -/
def Sheds (text bare : List Char) (comments : List (List Char)) : Prop :=
  ∃ pieces, ReadsAs text pieces ∧ Scan.comments pieces = comments ∧
    ∀ rest, uncomment (some []) (pieces ++ rest) = bare ++ uncomment (some []) rest

theorem uncomment_line {pieces : List Piece} (h : ∀ piece ∈ pieces, piece.comment? = none)
    (held : Option (List Char)) (rest : List Piece) :
    uncomment held (pieces ++ .plain '\n' :: rest) =
      held.getD [] ++ pieces.flatMap Piece.text ++ '\n' :: uncomment (some []) rest := by
  induction pieces generalizing held with
  | nil => simp [uncomment]
  | cons piece more ih =>
      have hrest := ih fun other hother => h other (List.mem_cons_of_mem piece hother)
      -- What is held back is given out before the piece or, if it is a blank, with it.
      cases piece with
      | plain c =>
          rw [List.cons_append, uncomment]
          split
          next hbreak => simp [hrest, Piece.text, hbreak]
          next =>
            split
            next hblank =>
              obtain ⟨indent, rfl⟩ := Option.isSome_iff_exists.mp hblank.2
              simp [hrest, Piece.text]
            next => simp [hrest, Piece.text]
      | quoted text => simp [uncomment, hrest, Piece.text]
      | comment text => simp [Piece.comment?] at h

theorem uncomment_indented (n : Nat) (held text : List Char) (rest : List Piece) :
    uncomment (some held)
      ((List.replicate n ' ').map Piece.plain ++ .comment text :: .plain '\n' :: rest) =
      uncomment (some []) rest := by
  induction n generalizing held with
  | zero => simp [uncomment]
  | succ n ih => simpa [List.replicate_succ, uncomment] using ih (held ++ [' '])

namespace Sheds

variable {text more bare others : List Char} {comments further : List (List Char)}

theorem nil : Sheds [] [] [] := ⟨[], .nil, rfl, fun _ => rfl⟩

theorem append (h : Sheds text bare comments) (h' : Sheds more others further) :
    Sheds (text ++ more) (bare ++ others) (comments ++ further) := by
  obtain ⟨pieces, hreads, hcomments, hbare⟩ := h
  obtain ⟨pieces', hreads', hcomments', hbare'⟩ := h'
  refine ⟨pieces ++ pieces', hreads.append hreads', ?_, fun rest => ?_⟩
  · rw [comments_append, hcomments, hcomments']
  · rw [List.append_assoc, hbare, hbare', List.append_assoc]

/-- A line of code stays as it is. -/
theorem line (h : IsCode text) : Sheds (text ++ ['\n']) (text ++ ['\n']) [] := by
  obtain ⟨pieces, hreads, hnone⟩ := h
  have hbreak : ReadsAs ['\n'] [.plain '\n'] := .plain (by decide)
  refine ⟨pieces ++ [.plain '\n'], hreads.append hbreak, ?_, fun rest => ?_⟩
  · rw [comments_append, comments_eq_nil hnone]
    rfl
  · rw [List.append_assoc, List.singleton_append, uncomment_line hnone, ← hreads.scan_eq,
      flatMap_text_scan]
    simp

/-- A comment on lines of its own is deleted as a whole. -/
theorem comment {text : List Char} (h : Unended ('/' :: '*' :: text)) (n : Nat) :
    Sheds (List.replicate n ' ' ++ ('/' :: '*' :: text ++ ['*', '/']) ++ ['\n']) []
      ['/' :: '*' :: text ++ ['*', '/']] := by
  have hindent : ReadsAs (List.replicate n ' ') ((List.replicate n ' ').map .plain) := by
    induction n with
    | zero => exact .nil
    | succ n ih => exact ReadsAs.append (.plain (by decide)) ih
  have hbreak : ReadsAs ['\n'] [.plain '\n'] := .plain (by decide)
  refine ⟨_, (hindent.append (.comment h)).append hbreak, ?_, fun rest => ?_⟩
  · rw [comments_append, comments_append, comments_eq_nil (by simp [Piece.comment?])]
    rfl
  · rw [List.append_assoc, List.append_assoc]
    exact uncomment_indented n [] _ rest

theorem of_scan (h : Sheds text bare comments) :
    uncomment (some []) (scan text) = bare ∧ Scan.comments (scan text) = comments := by
  obtain ⟨pieces, hreads, hcomments, hbare⟩ := h
  rw [hreads.scan_eq]
  exact ⟨by simpa [uncomment] using hbare [], hcomments⟩

end Sheds

end ApiInterfaces.Scan
