import ApiInterfaces.Header
import ApiInterfaces.Proofs.Files.Path
import ApiInterfaces.Proofs.Unicode.Casing

/-!
Where the file of an API goes. What the metadata says becomes two parts of the path below the
output directory, or none; it cannot lead out of the directory.
-/

namespace ApiInterfaces

namespace ApiInfo

/-- A character that means nothing in a path. -/
def isPlain (c : Char) : Bool := !isSeparator c && c ≠ '.'

theorem isPlain_iff {c : Char} : isPlain c = true ↔ isSeparator c = false ∧ c ≠ '.' := by
  simp [isPlain]

/-- The code points of dot and slash, of the backslash, and of blanks. -/
def specialRanges : List (Nat × Nat) := (0x2E, 0x2F) :: (0x5C, 0x5C) :: Unicode.blankRanges

theorem isPlain_of_avoids {c : Char} (h : Unicode.Avoids specialRanges c.toNat) :
    isPlain c = true := by
  have hdots := h (0x2E, 0x2F) (by decide)
  have hbackslash := h (0x5C, 0x5C) (by decide)
  have hblank : Unicode.isBlank c = false :=
    Unicode.Avoids.not_inRanges fun r hr => h r (by simp [specialRanges, hr])
  have hne : ∀ d : Char, d.toNat = 0x2E ∨ d.toNat = 0x2F ∨ d.toNat = 0x5C → c ≠ d := by
    rintro d hd rfl
    omega
  simp [isPlain, isSeparator, hblank, hne]

theorem mapsOutside_lower :
    Unicode.MapsOutside Unicode.lowerSequences Unicode.lowerRuns specialRanges where
  zero := by decide
  sequences := by decide +kernel
  runs := by decide +kernel

/-- A directory name that leads nowhere but down. -/
structure IsComponent (part : List Char) : Prop where
  plain : ∀ c ∈ part, isSeparator c = false
  notDots : ∃ c ∈ part, c ≠ '.'

/-- A field that is missing, or has nothing but blanks, separators and dots. -/
def NamesNothing (field : Option String) : Prop :=
  ∀ text, field = some text → ∀ c ∈ text.toList, isSeparator c = true ∨ c = '.'

/-- What is left of a text as part of a path. -/
def cleaned (text : String) : List Char := text.toList.filter fun c => !isSeparator c

namespace IsComponent

variable {part : List Char} (h : IsComponent part)
include h

theorem ne_nil : part ≠ [] := by
  obtain ⟨c, hc, -⟩ := h.notDots
  exact List.ne_nil_of_mem hc

theorem isPart : Path.IsPart part where
  slash hslash := absurd (h.plain '/' hslash) (by decide)
  counts := by
    have hdot : part ≠ ['.'] := by
      rintro rfl
      obtain ⟨c, hc, hne⟩ := h.notDots
      exact hne (List.mem_singleton.mp hc)
    simp [Path.isIdle, h.ne_nil, hdot]

/-- Lower case adds no separator, and leaves something besides dots. -/
theorem lowerText : IsComponent (Unicode.lowerText part) := by
  have hlower : ∀ c, ∀ d ∈ Unicode.lower c, d = c ∨ isPlain d = true := by
    intro c d hd
    exact (mapsOutside_lower.eq_or_avoids hd).imp_right isPlain_of_avoids
  have hsmall : isPlain 'σ' = true := by decide
  have hfinal : isPlain 'ς' = true := by decide
  constructor
  · intro d hd
    rcases Unicode.mem_or_of_mem_lowerAfter hlower hsmall hfinal hd with hd | hd
    · exact h.plain d hd
    · exact (isPlain_iff.mp hd).1
  · obtain ⟨c, hc, hne⟩ := h.notDots
    obtain ⟨d, hd, hplain⟩ := Unicode.exists_mem_lowerAfter hlower hsmall hfinal hc
      (isPlain_iff.mpr ⟨h.plain c hc, hne⟩)
    exact ⟨d, hd, (isPlain_iff.mp hplain).2⟩

end IsComponent

theorem pathComponent?_cases (text : String) :
    (pathComponent? text = none ∧ NamesNothing (some text)) ∨
      (pathComponent? text = some (cleaned text) ∧ ¬ NamesNothing (some text) ∧
        IsComponent (cleaned text)) := by
  have hplain : ∀ c ∈ cleaned text, isSeparator c = false := by
    intro c hc
    simpa using (List.mem_filter.mp hc).2
  unfold pathComponent?
  by_cases hdots : (cleaned text).all (· = '.') = true
  · refine .inl ⟨if_pos hdots, ?_⟩
    rintro _ ⟨rfl⟩ c hc
    by_cases hseparator : isSeparator c = true
    · exact .inl hseparator
    · have hmem : c ∈ cleaned text := List.mem_filter.mpr ⟨hc, by simpa using hseparator⟩
      exact .inr (by simpa using List.all_eq_true.mp hdots c hmem)
  · have hother : ∃ c ∈ cleaned text, c ≠ '.' := by simpa using hdots
    refine .inr ⟨if_neg hdots, ?_, hplain, hother⟩
    intro hnothing
    obtain ⟨c, hc, hne⟩ := hother
    rcases hnothing text rfl c (List.mem_filter.mp hc).1 with hseparator | hdot
    · exact absurd hseparator (by simp [hplain c hc])
    · exact hne hdot

theorem directory?_cases (info : ApiInfo) :
    (info.directory? = none ∧ (NamesNothing info.title ∨ NamesNothing info.version)) ∨
      ∃ title version, info.title = some title ∧ info.version = some version ∧
        info.directory? = some (String.ofList (Unicode.lowerText (cleaned title)),
          String.ofList (cleaned version)) ∧
        ¬ NamesNothing info.title ∧ ¬ NamesNothing info.version ∧
        IsComponent (cleaned title) ∧ IsComponent (cleaned version) := by
  have hmissing : NamesNothing none := by rintro text ⟨⟩
  unfold directory?
  cases info.title with
  | none => exact .inl ⟨rfl, .inl hmissing⟩
  | some title =>
      obtain ⟨htitle, hnothing⟩ | ⟨htitle, htold, hcomponent⟩ := pathComponent?_cases title
      · refine .inl ⟨?_, .inl hnothing⟩
        simp [htitle]
      · cases info.version with
        | none =>
            refine .inl ⟨?_, .inr hmissing⟩
            simp
        | some version =>
            obtain ⟨hversion, hnothing⟩ | ⟨hversion, hsaid, hother⟩ := pathComponent?_cases version
            · refine .inl ⟨?_, .inr hnothing⟩
              simp [hversion]
            · refine .inr ⟨title, version, rfl, rfl, ?_, htold, hsaid, hcomponent, hother⟩
              simp [htitle, hversion]

end ApiInfo

/-- The document cannot steer its file out of the output directory. Either its metadata does not
tell a title and a version, and the file is right in the directory; or they are two parts that
lead down, the title in lower case, and the file is in that directory below the output
directory. -/
theorem outputPath_leads_down (info : ApiInfo) (outputDirectory fileName : String) :
    match info.directory? with
    | none =>
      (ApiInfo.NamesNothing info.title ∨ ApiInfo.NamesNothing info.version) ∧
      outputPath outputDirectory (some info) fileName = Path.join outputDirectory fileName
    | some (title, version) =>
      let directory := Path.join (Path.join outputDirectory title) version
      ¬ ApiInfo.NamesNothing info.title ∧ ¬ ApiInfo.NamesNothing info.version ∧
      (∃ text, info.title = some text ∧
        title.toList = Unicode.lowerText (ApiInfo.cleaned text)) ∧
      (∃ text, info.version = some text ∧ version.toList = ApiInfo.cleaned text) ∧
      ApiInfo.IsComponent title.toList ∧ ApiInfo.IsComponent version.toList ∧
      Path.start (Path.join title version) = [] ∧
      Path.parts (Path.join title version) = [title.toList, version.toList] ∧
      outputPath outputDirectory (some info) fileName = Path.join directory fileName ∧
      Path.start directory = Path.start outputDirectory ∧
      Path.parts directory = Path.parts outputDirectory ++ [title.toList, version.toList] := by
  obtain ⟨hnone, hnothing⟩ |
    ⟨title, version, htitle, hversion, hsome, htold, hsaid, hfirst, hsecond⟩ := info.directory?_cases
  · rw [hnone]
    refine ⟨hnothing, ?_⟩
    simp [outputPath, hnone]
  · have hlowered := hfirst.lowerText
    rw [hsome]
    dsimp only
    refine ⟨htold, hsaid, ⟨title, htitle, String.toList_ofList⟩,
      ⟨version, hversion, String.toList_ofList⟩, ?_, ?_, ?_, ?_, ?_, ?_, ?_⟩
    · rwa [String.toList_ofList]
    · rwa [String.toList_ofList]
    · rw [hsecond.isPart.start_join, hlowered.isPart.start_ofList]
    · rw [hsecond.isPart.parts_join, hlowered.isPart.parts_ofList, String.toList_ofList,
        String.toList_ofList]
      rfl
    · simp [outputPath, hsome, hsecond.isPart.join_join hlowered.isPart]
    · rw [hsecond.isPart.start_join, hlowered.isPart.start_join]
    · rw [hsecond.isPart.parts_join, hlowered.isPart.parts_join, List.append_assoc,
        String.toList_ofList, String.toList_ofList]
      rfl

example : outputPath "out" (some { title := some "/../", version := some ". ." }) "api.d.ts" =
    "out/api.d.ts" := by decide +kernel

end ApiInterfaces
