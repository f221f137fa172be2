import ApiInterfaces.Generation
import ApiInterfaces.Proofs.Files.Delivery

/-!
What a run leaves behind. Settings and document are only looked at, so a run that they stop
changes nothing. Afterwards the path and the whole text of the file are settled, and all that
remains is to deliver it.
-/

namespace ApiInterfaces

open FileTree

variable {host : Host (StateM FileTree)} {t : FileTree}

/-! Looking at settings and document. -/

namespace Settings

theorem observes_read (serves : Serves host) (path : String) : Observes (read host path) := by
  apply (serves.readText path).bind
  intro outcome
  cases outcome <;> exact observes_pure _

theorem observes_load (serves : Serves host) (named : Option String) (directory : String) :
    Observes (load host named directory) := by
  cases named with
  | some path => exact observes_read serves path
  | none =>
      apply (serves.isFile _).bind
      intro there
      cases there with
      | true => exact observes_read serves _
      | false => exact observes_pure _

theorem stage_of_read {path : String} {fault : Fault} (h : (read host path t).1 = .error fault) :
    fault.stage = .settings := by
  rw [read, bind_apply] at h
  cases houtcome : (host.readText path t).1 with
  | error e =>
      rw [houtcome] at h
      rw [← Except.error.inj h]
      rfl
  | ok contents =>
      rw [houtcome] at h
      have hparse : parse path contents = .error fault := h
      unfold parse at hparse
      split at hparse
      next => cases hparse
      next =>
        rw [← Except.error.inj hparse]
        rfl

theorem stage_of_load {named : Option String} {directory : String} {fault : Fault}
    (h : (load host named directory t).1 = .error fault) : fault.stage = .settings := by
  cases named with
  | some path => exact stage_of_read h
  | none =>
      rw [load, bind_apply] at h
      split at h
      next => exact stage_of_read h
      next => cases h

end Settings

namespace Json

theorem observes_load (serves : Serves host) (path : String) : Observes (load host path) := by
  apply (serves.readText path).bind
  intro outcome
  cases outcome with
  | error e => exact observes_pure _
  | ok contents =>
      dsimp only
      split
      next => exact observes_pure _
      next => split <;> exact observes_pure _

theorem stage_of_parse {path contents : String} {fault : Fault}
    (h : parse path contents = .error fault) : fault.stage = .input := by
  unfold parse at h
  dsimp only at h
  split at h
  next =>
    rw [← Except.error.inj h]
    rfl
  next => cases h
  next => cases h
  next =>
    split at h
    next => cases h
    next =>
      rw [← Except.error.inj h]
      rfl

theorem stage_of_load {path : String} {fault : Fault}
    (h : (load host path t).1.1 = .error fault) : fault.stage = .input := by
  rw [load, bind_apply] at h
  cases houtcome : (host.readText path t).1 with
  | error e =>
      rw [houtcome] at h
      rw [← Except.error.inj h]
      rfl
  | ok contents =>
      rw [houtcome] at h
      dsimp only at h
      cases hparse : parse path contents with
      | error e =>
          rw [hparse] at h
          rw [← Except.error.inj h]
          exact stage_of_parse hparse
      | ok document =>
          rw [hparse] at h
          dsimp only at h
          cases hdefect : document.defect? with
          | none =>
              rw [hdefect] at h
              cases h
          | some defect =>
              rw [hdefect] at h
              rw [← Except.error.inj h]
              rfl

end Json

/-- The settings and the document that are there ask for `file` at `path`. -/
def Request.Plans (request : Request) (host : Host (StateM FileTree)) (directory : String)
    (t : FileTree) (path : String) (file : DeclarationFile) : Prop :=
  ∃ settings document,
    (Settings.load host request.settings directory t).1 = .ok settings ∧
    (Json.load host request.input t).1.1 = .ok document ∧
    let info := (Extraction.ofDocument document).1.info
    path = outputPath (request.outputDirectory.getD settings.outputDirectory) info
      settings.fileName ∧
    file = (DeclarationFile.ofDocument document
      (headerLines request.input info (host.now t).1)).1

/-- A run that has its document comes to what the delivery of its file comes to. -/
theorem generateFrom_spec (serves : Serves host) {settings : Settings}
    {outputDirectory input path : String} {document : Json} {file : DeclarationFile}
    (hpath : path =
      outputPath outputDirectory (Extraction.ofDocument document).1.info settings.fileName)
    (hfile : file = (DeclarationFile.ofDocument document
      (headerLines input (Extraction.ofDocument document).1.info (host.now t).1)).1) :
    let (report, u) := generateFrom host settings outputDirectory input document t
    match report.result with
    | .error fault => fault.stage = .delivery ∧ Confined path ∅ t u
    | .ok made => made = ⟨path, file.names⟩ ∧
      ∃ at_, u.LeadsTo path at_ (.file file.text.toUTF8) ∧ Confined path {at_} t u := by
  have hsave := serves.save_spec path file t
  subst hpath hfile
  unfold generateFrom
  unfold DeclarationFile.ofDocument at hsave ⊢
  dsimp only at hsave ⊢
  rw [bind_apply, serves.now t, bind_apply]
  generalize DeclarationFile.save host _ _ t = delivery at hsave ⊢
  obtain ⟨fault | saved, u⟩ := delivery
  · exact hsave
  · dsimp only
    rw [bind_apply, serves.elapsed u]
    exact ⟨rfl, hsave⟩

/-- A run changes nothing but its output. One that stops before its delivery leaves the tree as
it is; one that fails to deliver leaves the files as they are; one that succeeds has put the whole
text of its file at the path, and lists the names in it. New directories are only above the
path. -/
theorem generate_changes_only_output (serves : Serves host) (directory : String)
    (request : Request) (t : FileTree) :
    let (report, u) := generate host directory request t
    match report.result with
    | .error fault =>
      (fault.stage ≠ .delivery → u = t) ∧
      (fault.stage = .delivery →
        ∃ path file, request.Plans host directory t path file ∧ Confined path ∅ t u)
    | .ok made =>
      ∃ file at_, request.Plans host directory t made.path file ∧
        made.interfaces = file.names ∧
        u.LeadsTo made.path at_ (.file file.text.toUTF8) ∧
        Confined made.path {at_} t u := by
  have hsettings := Settings.observes_load serves request.settings directory t
  have hinput := Json.observes_load serves request.input t
  unfold generate
  rw [bind_apply, hsettings]
  cases hloaded : (Settings.load host request.settings directory t).1 with
  | error fault =>
      have hstage := Settings.stage_of_load hloaded
      refine ⟨fun _ => rfl, fun hdelivery => ?_⟩
      rw [hstage] at hdelivery
      cases hdelivery
  | ok settings =>
      dsimp only
      rw [bind_apply, hinput]
      cases hdocument : (Json.load host request.input t).1.1 with
      | error fault =>
          have hstage := Json.stage_of_load hdocument
          refine ⟨fun _ => rfl, fun hdelivery => ?_⟩
          rw [hstage] at hdelivery
          cases hdelivery
      | ok document =>
          obtain ⟨path, hpath⟩ : ∃ path, path = outputPath
              (request.outputDirectory.getD settings.outputDirectory)
              (Extraction.ofDocument document).1.info settings.fileName := ⟨_, rfl⟩
          obtain ⟨file, hfile⟩ : ∃ file, file = (DeclarationFile.ofDocument document
              (headerLines request.input (Extraction.ofDocument document).1.info
                (host.now t).1)).1 := ⟨_, rfl⟩
          have hplans : request.Plans host directory t path file :=
            ⟨settings, document, hloaded, hdocument, hpath, hfile⟩
          have hspec := generateFrom_spec serves hpath hfile
          dsimp only
          rw [bind_apply]
          generalize generateFrom host settings _ request.input document t = ended at hspec ⊢
          obtain ⟨⟨fault | made, progress, events⟩, u⟩ := ended
          · exact ⟨fun h => absurd hspec.1 h, fun _ => ⟨path, file, hplans, hspec.2⟩⟩
          · obtain ⟨rfl, at_, hleads, hconfined⟩ := hspec
            exact ⟨file, at_, hplans, rfl, hleads, hconfined⟩

/-- A run in a tree that holds one document, and nothing where the file goes. -/
theorem generate_changes_only_output_cat :
    let schema := Json.obj [("type", .str "object"), ("title", .str "cat")]
    let document := Json.obj [("swagger", .str "2.0"), ("paths", .obj [("schema", schema)])]
    let t : FileTree := ⟨[(["api.json"], .file document.compact.toUTF8)], []⟩
    let (report, u) := generate (FileTree.host 0 0) "" { input := "/api.json" } t
    report.result = .ok ⟨"output/schemas.d.ts", ["Cat"]⟩ ∧
      ∃ file : DeclarationFile, ∃ at_, file.names = ["Cat"] ∧
        u.LeadsTo "output/schemas.d.ts" at_ (.file file.text.toUTF8) ∧
        Confined "output/schemas.d.ts" {at_} t u := by
  intro schema document t
  have h := generate_changes_only_output (serves_host 0 0) "" { input := "/api.json" } t
  have hresult : (generate (FileTree.host 0 0) "" { input := "/api.json" } t).1.result =
      .ok ⟨"output/schemas.d.ts", ["Cat"]⟩ := by
    decide +kernel
  generalize generate (FileTree.host 0 0) "" { input := "/api.json" } t = run at h hresult ⊢
  obtain ⟨report, u⟩ := run
  dsimp only at h hresult ⊢
  rw [hresult] at h
  obtain ⟨file, at_, -, hnames, hleads, hconfined⟩ := h
  exact ⟨hresult, file, at_, hnames.symm, hleads, hconfined⟩

end ApiInterfaces
