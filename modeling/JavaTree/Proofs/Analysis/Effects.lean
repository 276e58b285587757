import JavaTree.Proofs.Document.JsonText
import JavaTree.Proofs.Pipeline.Interleaving
import JavaTree.Proofs.Storage.Directories

/-! # What a run does to the files

    A run reads its source, makes the output directory and exports.  Each
    stage can fail.  A source that cannot be read leaves the file tree exactly
    as it was, a directory that cannot be made leaves the files as they were,
    and a failed artifact is reported and leaves its file alone.  A panic is
    not reported: it ends the run.

    `FileTree.SourceFails` lists the ways in which no tree is read, and
    `FileTree.Parses` says what is read otherwise.  The artifacts go into a
    directory, which is a sink that is a map (`FileTree.depot`), so that what
    holds of all such sinks holds here.

    The main statement is `FileTree.run_writes_or_reports`. -/

namespace JavaTree

namespace FileTree

/-! ## Section 1: Reading the source -/

/-- What is read from a source, as a function of the file tree. -/
def parse (t : FileTree) (forced : Option Format) (source : String) : Except SourceError Tree :=
  if t.isFile source then
    match forced.or (Format.ofPath? source), t.read source with
    | none, _ => .error (.malformed source .unknownFormat)
    | some _, .error e => .error (.malformed source (.unreadable e))
    | some format, .ok text => (Tree.ofText format text).mapError (.malformed source)
  else .error (.notFound source)

/-- Reading changes nothing. -/
theorem run_readTree (t : FileTree) (forced : Option Format) (source : String) :
    (storage.readTree forced source).run t = (t.parse forced source, t) := by
  rw [Storage.readTree, run_bind_eq, parse]
  show (if !t.isFile source then _ else _ : StateM FileTree _).run t = _
  cases t.isFile source with
  | false => rfl
  | true =>
    cases forced.or (Format.ofPath? source) with
    | none => rfl
    | some format =>
      have hread : (storage.read source).run t = (t.read source, t) := rfl
      show ((storage.read source >>= _).run t) = _
      rw [run_bind_eq, hread]
      cases t.read source with
      | error e => rfl
      | ok text => rfl

/-- The file at a path is the text of a tree, in the format that is given or
    told by the file name. -/
def Parses (t : FileTree) (forced : Option Format) (source : String) (tree : Tree) : Prop :=
  ∃ contents text format d, t.find source = .ok (.file contents) ∧
    forced.or (Format.ofPath? source) = some format ∧ String.fromUTF8? contents = some text ∧
    Document.decode format text = .ok d ∧ Tree.ofDocument d = .ok tree

/-- Why no tree is read from a source. -/
inductive SourceFails (t : FileTree) (forced : Option Format) (source : String) :
    SourceError → Prop where
  /-- There is no file. -/
  | missing (hfile : ∀ contents, t.find source ≠ .ok (.file contents)) :
      SourceFails t forced source (.notFound source)
  /-- The file name does not tell a format. -/
  | unknownFormat {contents : ByteArray} (hfile : t.find source = .ok (.file contents))
      (hformat : forced.or (Format.ofPath? source) = none) :
      SourceFails t forced source (.malformed source .unknownFormat)
  /-- The contents are not UTF-8. -/
  | notText {contents : ByteArray} {format : Format}
      (hfile : t.find source = .ok (.file contents))
      (hformat : forced.or (Format.ofPath? source) = some format)
      (htext : String.fromUTF8? contents = none) :
      SourceFails t forced source (.malformed source (.unreadable .notText))
  /-- The text is no document of the format. -/
  | undecodable {contents : ByteArray} {format : Format} {text : String} {e : DecodeError}
      (hfile : t.find source = .ok (.file contents))
      (hformat : forced.or (Format.ofPath? source) = some format)
      (htext : String.fromUTF8? contents = some text)
      (hdecode : Document.decode format text = .error e) :
      SourceFails t forced source (.malformed source (.undecodable format e))
  /-- The document is no valid tree. -/
  | invalidTree {contents : ByteArray} {format : Format} {text : String} {d : Document}
      {e : TreeError} (hfile : t.find source = .ok (.file contents))
      (hformat : forced.or (Format.ofPath? source) = some format)
      (htext : String.fromUTF8? contents = some text)
      (hdecode : Document.decode format text = .ok d) (htree : Tree.ofDocument d = .error e) :
      SourceFails t forced source (.malformed source (.invalidTree e))

section Source

variable {t : FileTree} {forced : Option Format} {source : String}

theorem isFile_of_find {contents : ByteArray} (h : t.find source = .ok (.file contents)) :
    t.isFile source = true := by
  rw [isFile, h]

theorem read_of_find {contents : ByteArray} (h : t.find source = .ok (.file contents)) :
    t.read source =
      match String.fromUTF8? contents with
      | some text => .ok text
      | none => .error .notText := by
  rw [read, h]
  cases htext : String.fromUTF8? contents with
  | some text => simp [htext, bind, Except.bind, pure, Except.pure]
  | none => simp [htext, bind, Except.bind]

theorem fromUTF8?_toUTF8 (s : String) : String.fromUTF8? s.toUTF8 = some s := by
  rw [String.fromUTF8?]
  exact dif_pos s.isValidUTF8

theorem parse_of_parses {tree : Tree} (h : t.Parses forced source tree) :
    t.parse forced source = .ok tree := by
  obtain ⟨contents, text, format, d, hfile, hformat, htext, hdecode, htree⟩ := h
  have hread : t.read source = .ok text := by
    rw [read_of_find hfile, htext]
  rw [parse, if_pos (isFile_of_find hfile), hformat, hread]
  dsimp only
  rw [Tree.ofText, hdecode]
  show ((Tree.ofDocument d).mapError SourceFault.invalidTree).mapError _ = _
  rw [htree]
  rfl

theorem parse_of_sourceFails {e : SourceError} (h : t.SourceFails forced source e) :
    t.parse forced source = .error e := by
  rw [parse]
  cases h with
  | missing hfile =>
    have hno : t.isFile source = false := by
      rw [isFile]
      split
      · rename_i contents heq
        exact absurd heq (hfile contents)
      · rfl
    rw [hno]
    rfl
  | unknownFormat hfile hformat =>
    rw [if_pos (isFile_of_find hfile), hformat]
  | notText hfile hformat htext =>
    rw [if_pos (isFile_of_find hfile), hformat, read_of_find hfile, htext]
  | undecodable hfile hformat htext hdecode =>
    rw [if_pos (isFile_of_find hfile), hformat, read_of_find hfile, htext]
    dsimp only
    rw [Tree.ofText, hdecode]
    rfl
  | @invalidTree _ _ _ d _ hfile hformat htext hdecode htree =>
    rw [if_pos (isFile_of_find hfile), hformat, read_of_find hfile, htext]
    dsimp only
    rw [Tree.ofText, hdecode]
    show ((Tree.ofDocument d).mapError SourceFault.invalidTree).mapError _ = _
    rw [htree]
    rfl

/-- A source is read, or it fails in one of the ways listed. -/
theorem sourceFails_or_parses (t : FileTree) (forced : Option Format) (source : String) :
    (∃ e, t.SourceFails forced source e) ∨ ∃ tree, t.Parses forced source tree := by
  by_cases hfile : ∃ contents, t.find source = .ok (.file contents)
  · obtain ⟨contents, hfile⟩ := hfile
    cases hformat : forced.or (Format.ofPath? source) with
    | none => exact .inl ⟨_, .unknownFormat hfile hformat⟩
    | some format =>
      cases htext : String.fromUTF8? contents with
      | none => exact .inl ⟨_, .notText hfile hformat htext⟩
      | some text =>
        cases hdecode : Document.decode format text with
        | error e => exact .inl ⟨_, .undecodable hfile hformat htext hdecode⟩
        | ok d =>
          cases htree : Tree.ofDocument d with
          | error e => exact .inl ⟨_, .invalidTree hfile hformat htext hdecode htree⟩
          | ok tree =>
            exact .inr ⟨tree, contents, text, format, d, hfile, hformat, htext, hdecode, htree⟩
  · refine .inl ⟨_, .missing ?_⟩
    intro contents hcontents
    exact hfile ⟨contents, hcontents⟩

end Source

/-! ## Section 2: The stages of a run -/

section Stages

variable {t t₁ : FileTree} {forced : Option Format} {config : Config} {source directory : String}

theorem run_analyze_of_sourceFails {e : SourceError} (h : t.SourceFails forced source e) :
    (storage.analyze forced config source directory).run t =
      (.ok (.error (.source e)), t) := by
  rw [Storage.analyze, run_bind_eq, run_readTree, parse_of_sourceFails h]
  rfl

theorem run_analyze_of_directory_error {tree : Tree} (h : t.Parses forced source tree)
    {e : StorageError} (hmake : (storage.ensureDirectories directory).run t = (.error e, t₁)) :
    (storage.analyze forced config source directory).run t =
      (.ok (.error (.outputDirectory directory e)), t₁) := by
  rw [Storage.analyze, run_bind_eq, run_readTree, parse_of_parses h]
  show ((storage.ensureDirectories directory >>= _).run t) = _
  rw [run_bind_eq, hmake]
  rfl

/-- The exporters of a run. -/
def exporters (config : Config) : List Exporter :=
  Exporter.standard config.layout config.styled config.treeFormat

theorem run_analyze_of_directory {tree : Tree} (h : t.Parses forced source tree)
    (hmake : (storage.ensureDirectories directory).run t = (.ok (), t₁))
    {answer : Except Panic Report} {t' : FileTree}
    (hrun : (Pipeline.run (storage.sink directory) config.parallel (exporters config)
      tree.root).run t₁ = (answer, t')) :
    (storage.analyze forced config source directory).run t = (answer.map .ok, t') := by
  rw [Storage.analyze, run_bind_eq, run_readTree, parse_of_parses h]
  show ((storage.ensureDirectories directory >>= _).run t) = _
  rw [run_bind_eq, hmake]
  show ((Pipeline.run (storage.sink directory) config.parallel (exporters config) tree.root
    >>= _).run t₁) = _
  rw [run_bind_eq, hrun]
  rfl

end Stages

/-! ## Section 3: Artifacts in a directory -/

theorem isName_of_mem_exporters {config : Config} {e : Exporter} (h : e ∈ exporters config) :
    Path.IsName e.artifact := by
  have hname : e.artifact ∈
      ["code.txt", "ast.dot", "ast." ++ config.treeFormat.extension, "stats.txt"] :=
    List.mem_map_of_mem (f := Exporter.artifact) h
  have hall : ∀ format : Format, ∀ name ∈
      ["code.txt", "ast.dot", "ast." ++ format.extension, "stats.txt"], Path.IsName name := by
    intro format
    cases format <;> decide
  exact hall config.treeFormat e.artifact hname

/-- What has become of a file tree `t` when the exporters have written into the
    directory at the place `p`, which was made first and left the tree `t₁`. -/
structure Delivers (t t₁ : FileTree) (directory : String) (p : Place) (exporters : List Exporter)
    (root : Cursor) (report : Report) (t' : FileTree) : Prop where
  /-- The output path leads to the directory. -/
  leads : t'.Leads directory p
  /-- There is one outcome for each exporter, in their order. -/
  outcomes : report.outcomes.map .ok = exporters.map ((t₁.depot directory p).verdict root)
  /-- An artifact is written if it could be rendered and no directory stands in
      its place. -/
  written_iff : ∀ e ∈ exporters, e.artifact ∈ report.written ↔
    (∃ text, e.render root = .ok (.ok text)) ∧ t'.entry? (p ++ [e.artifact]) ≠ some .directory
  /-- A written artifact is in the output directory, and its file holds the
      text that was rendered. -/
  stored : ∀ e ∈ exporters, e.artifact ∈ report.written →
    t'.place (Path.join directory e.artifact) = .ok (p ++ [e.artifact]) ∧
      ∃ text, e.render root = .ok (.ok text) ∧ t'.FileAt (p ++ [e.artifact]) text.toUTF8
  /-- No other file was made, changed or removed. -/
  unchanged : ∀ q, (∀ name ∈ report.written, p ++ [name] ≠ q) →
    ∀ contents, t'.FileAt q contents ↔ t.FileAt q contents
  /-- Once the output directory is made, directories neither come nor go. -/
  directories : ∀ q, t'.entry? q = some .directory ↔ t₁.entry? q = some .directory
  /-- The exit code is zero if all artifacts were written. -/
  success : report.exitCode = 0 ↔ ∀ e ∈ exporters, e.artifact ∈ report.written
  /-- It is two if one was not. -/
  failure : report.exitCode = 2 ↔ ∃ e ∈ exporters, e.artifact ∉ report.written
  /-- The exporters may take their steps in any order. -/
  orders : ∀ m answers,
    Pipeline.Interleaves (storage.sink directory) exporters root (.start exporters t₁) m →
      m.EndsWith answers →
        answers = report.outcomes.map .ok ∧ ∀ q, m.state.entry? q = t'.entry? q

section Delivery

variable {t t₁ : FileTree} {directory : String} {p : Place} {es : List Exporter} {root : Cursor}

/-- Exporters with different names deliver into a directory that was made. -/
theorem exists_delivers (hgrows : t.Grows t₁) (hleads : t₁.Leads directory p)
    (hserves : ∀ e ∈ es, Path.IsName e.artifact) (hnames : (es.map (·.artifact)).Nodup)
    (hcalm : ∀ e ∈ es, ¬e.PanicsAt root) (parallel : Bool) :
    ∃ report t', (Pipeline.run (storage.sink directory) parallel es root).run t₁ =
        (.ok report, t') ∧
      Delivers t t₁ directory p es root report t' := by
  have hvalid : (t₁.depot directory p).valid t₁ := ⟨hleads, fun _ => Iff.rfl⟩
  obtain ⟨outcomes, t', hrun, houtcomes, ⟨hleads', hsame⟩, hsettled⟩ :=
    Pipeline.Depot.exists_run root hserves hnames hvalid hcalm
  have hisolates := hsettled.isolates hserves hnames houtcomes
  refine ⟨_, t', hrun parallel, ?_⟩
  -- A name is refused if a directory stands in its place, and then it stays there.
  have hwrites : ∀ e ∈ es, (t₁.depot directory p).Writes root e ↔
      (∃ text, e.render root = .ok (.ok text)) ∧
        t'.entry? (p ++ [e.artifact]) ≠ some .directory := by
    intro e _
    have hrefusal : (t₁.depot directory p).refusal? e.artifact = none ↔
        t'.entry? (p ++ [e.artifact]) ≠ some .directory := by
      rw [Ne, hsame e.artifact]
      exact refusal?_eq_none_iff
    rw [Pipeline.Depot.Writes, hrefusal]
  exact {
    leads := hleads'
    outcomes := hisolates.outcomes
    written_iff := by
      intro e he
      rw [hisolates.written_iff e he]
      exact hwrites e he
    stored := by
      intro e he hwritten
      refine ⟨place_join hleads' (hserves e he), ?_⟩
      exact hisolates.kept e he hwritten
    unchanged := by
      intro q hq contents
      have hentry : t'.entry? q = t₁.entry? q := hisolates.untouched q hq
      rw [FileAt, hentry]
      exact hgrows.fileAt_iff q contents
    directories := by
      intro q
      by_cases hq : ∃ name, p ++ [name] = q
      · obtain ⟨name, rfl⟩ := hq
        exact hsame name
      · have hentry : t'.entry? q = t₁.entry? q := by
          apply hisolates.untouched q
          intro name _ hkey
          exact hq ⟨name, hkey⟩
        rw [hentry]
    success := hisolates.exitCode_eq_zero_iff
    failure := hisolates.exitCode_eq_two_iff
    orders := by
      intro m answers hm hend
      have hconsistent := Pipeline.Depot.Consistent.of_interleaves hserves hnames hvalid hm
      refine ⟨(hconsistent.answers_eq hend).trans hisolates.outcomes.symm, ?_⟩
      exact (hconsistent.settled hend).look_eq hsettled fun _ _ => Iff.rfl }

/-- A written artifact is a file. -/
theorem Delivers.isFile {report : Report} {t' : FileTree}
    (h : Delivers t t₁ directory p es root report t') {e : Exporter} (he : e ∈ es)
    (hname : Path.IsName e.artifact) (hwritten : e.artifact ∈ report.written) :
    t'.isFile (Path.join directory e.artifact) = true := by
  obtain ⟨-, text, -, hfile⟩ := h.stored e he hwritten
  rw [FileAt] at hfile
  have hfind : t'.find (Path.join directory e.artifact) = .ok (.file text.toUTF8) := by
    rw [find_join h.leads hname, hfile]
  exact isFile_of_find hfind

/-- If the first exporter panics there is no report.  In turn nothing is
    written, and in parallel nothing but the artifacts of the others. -/
theorem exists_run_of_first_panic (hgrows : t.Grows t₁) (hleads : t₁.Leads directory p)
    {e : Exporter} (hserves : ∀ f ∈ e :: es, Path.IsName f.artifact)
    (hnames : ((e :: es).map (·.artifact)).Nodup) {panic : Panic}
    (hpanic : e.render root = .error panic) (parallel : Bool) :
    ∃ t', (Pipeline.run (storage.sink directory) parallel (e :: es) root).run t₁ =
        (.error panic, t') ∧
      (parallel = false → t' = t₁) ∧
      ∀ q, (∀ f ∈ es, p ++ [f.artifact] ≠ q) →
        ∀ contents, t'.FileAt q contents ↔ t.FileAt q contents := by
  cases parallel with
  | false =>
    refine ⟨t₁, (Pipeline.run_of_first_panic _ hpanic es t₁).1, fun _ => rfl, ?_⟩
    intro q _
    exact hgrows.fileAt_iff q
  | true =>
    have hvalid : (t₁.depot directory p).valid t₁ := ⟨hleads, fun _ => Iff.rfl⟩
    obtain ⟨t', -, hrun, hsettled, -⟩ :=
      (t₁.depot directory p).exists_run_of_panic root [] es hserves hnames hvalid nofun hpanic
    refine ⟨t', hrun, nofun, ?_⟩
    intro q hq contents
    have hentry : t'.entry? q = t₁.entry? q := by
      apply hsettled.untouched q
      intro f hf hwrites
      rcases List.mem_cons.1 hf with rfl | hf
      · exact absurd ⟨panic, hpanic⟩ hwrites.not_panicsAt
      · exact hq f hf
    rw [FileAt, hentry]
    exact hgrows.fileAt_iff q contents

end Delivery

/-- A tree that was read is built. -/
theorem Parses.built {t : FileTree} {forced : Option Format} {source : String} {tree : Tree}
    (h : t.Parses forced source tree) : tree.Built := by
  obtain ⟨_, _, _, d, -, -, -, -, htree⟩ := h
  exact Tree.built_of_ofDocument htree

/-- Where every artifact can be rendered, there is room for the source code. -/
theorem Parses.room_of_rendered {t : FileTree} {forced : Option Format} {source : String}
    {tree : Tree} (h : t.Parses forced source tree) {config : Config}
    (hrendered : ∀ e ∈ exporters config, ∃ text, e.render tree.root = .ok (.ok text)) :
    ¬(maxBytes < config.layout.indentWidth ∨ tree.root.Overflows) := by
  rw [← Exporter.standard_panics_iff (n := tree.root) h.built config.layout config.styled
    config.treeFormat]
  rintro ⟨e, he, p, hp⟩
  obtain ⟨text, htext⟩ := hrendered e he
  rw [hp] at htext
  cases htext

/-! ## Section 4: All or reports -/

/-- Every source is read or fails in one of five ways.  If it fails, the file
    tree stays as it is.  If the output directory cannot be made, no file is
    made, changed or removed; it can be made exactly if no file stands on the
    way to it.  Otherwise there are four outcomes, every written artifact is in
    the output directory with the text that its exporter rendered, and all
    other files stay.  The exit code tells which: one if the run could not
    start, zero if everything was written, and two if not.

    All this is without a panic.  There is one exactly if there is no room for
    the spaces of a level, or the first node on the way up that has no source
    text is an array creation without room for its brackets.  Then the run ends
    without a report, and in turn without any artifact. -/
theorem run_writes_or_reports (t : FileTree) (forced : Option Format) (config : Config)
    (source directory : String) :
    ((∃ e, t.SourceFails forced source e) ∨ ∃ tree, t.Parses forced source tree) ∧
    (∀ e, t.SourceFails forced source e →
      ∃ outcome, (storage.analyze forced config source directory).run t = (outcome, t) ∧
        outcome = .ok (.error (.source e)) ∧ runExitCode outcome = 1) ∧
    ((Path.steps directory).getLast? ≠ some "." →
      ((∃ t₁, (storage.ensureDirectories directory).run t = (.ok (), t₁)) ↔
        t.Clear (Path.components directory))) ∧
    (∀ tree e t₁, t.Parses forced source tree →
      (storage.ensureDirectories directory).run t = (.error e, t₁) →
      ∃ outcome, (storage.analyze forced config source directory).run t = (outcome, t₁) ∧
        outcome = .ok (.error (.outputDirectory directory e)) ∧ runExitCode outcome = 1 ∧
        ∀ q contents, t₁.FileAt q contents ↔ t.FileAt q contents) ∧
    ∀ tree t₁, t.Parses forced source tree →
      (storage.ensureDirectories directory).run t = (.ok (), t₁) →
      ∃ p, (¬(maxBytes < config.layout.indentWidth ∨ tree.root.Overflows) →
        ∃ report t',
          (storage.analyze forced config source directory).run t = (.ok (.ok report), t') ∧
          report.outcomes.length = 4 ∧ runExitCode (.ok (.ok report)) = report.exitCode ∧
          Delivers t t₁ directory p (exporters config) tree.root report t') ∧
      (maxBytes < config.layout.indentWidth ∨ tree.root.Overflows →
        ∃ t',
          (storage.analyze forced config source directory).run t = (.error .capacity, t') ∧
          runExitCode (.error .capacity) = 101 ∧ (config.parallel = false → t' = t₁) ∧
          ∀ q, (∀ e ∈ (exporters config).tail, p ++ [e.artifact] ≠ q) →
            ∀ contents, t'.FileAt q contents ↔ t.FileAt q contents) := by
  refine ⟨t.sourceFails_or_parses forced source, ?_, ?_, ?_, ?_⟩
  · intro e he
    exact ⟨_, run_analyze_of_sourceFails he, rfl, rfl⟩
  · intro hlast
    rcases t.makes_ensureDirectories hlast with ⟨hclear, hok, -⟩ | ⟨hblocked, e, herror⟩
    · exact ⟨fun _ => hclear, fun _ => ⟨_, Prod.ext hok rfl⟩⟩
    · refine ⟨?_, fun hclear => absurd hclear hblocked⟩
      rintro ⟨t₁, hrun⟩
      rw [hrun] at herror
      cases herror
  · intro tree e t₁ htree hmake
    obtain ⟨hgrows, -⟩ := t.run_ensureDirectories directory
    rw [hmake] at hgrows
    exact ⟨_, run_analyze_of_directory_error htree hmake, rfl, rfl, hgrows.fileAt_iff⟩
  · intro tree t₁ htree hmake
    obtain ⟨hgrows, hleads⟩ := t.run_ensureDirectories directory
    rw [hmake] at hgrows hleads
    obtain ⟨p, hp⟩ := hleads rfl
    have hnames := Exporter.nodup_standard config.layout config.styled config.treeFormat
    have hserves : ∀ e ∈ exporters config, Path.IsName e.artifact :=
      fun _ he => isName_of_mem_exporters he
    have hpanics := Exporter.standard_panics_iff (n := tree.root) htree.built config.layout
      config.styled config.treeFormat
    refine ⟨p, ?_, ?_⟩
    · intro hroom
      obtain ⟨report, t', hrun, hdelivers⟩ := exists_delivers hgrows hp
        hserves hnames
        (fun e he hpanic => hroom (hpanics.1 ⟨e, he, hpanic⟩)) config.parallel
      refine ⟨report, t', run_analyze_of_directory htree hmake hrun, ?_, rfl, hdelivers⟩
      rw [← List.length_map Except.ok, hdelivers.outcomes, List.length_map]
      rfl
    · intro hroom
      have hprint := (Printer.print_panics_iff htree.built.linked config.layout .capacity).2
        ⟨rfl, hroom⟩
      obtain ⟨t', hrun, hturn, hfiles⟩ := exists_run_of_first_panic hgrows hp
        hserves hnames
        (Exporter.code_render_eq_error_iff.2 hprint) config.parallel
      exact ⟨t', run_analyze_of_directory htree hmake hrun, rfl, hturn, hfiles⟩

/-- A small source, a file where a directory is wanted, and a directory in the
    place of the graph. -/
def squatted : FileTree where
  entries :=
    [(["in.yaml"], .file (String.toUTF8 "kind: CompilationUnit\n")),
      (["blocked"], .file (String.toUTF8 "")), (["out"], .directory),
      (["out", "ast.dot"], .directory)]

/-- Its source is the smallest one, which has all four artifacts. -/
theorem parses_squatted : ∃ tree, squatted.Parses none "in.yaml" tree ∧
    ∀ e ∈ exporters {}, ∃ text, e.render tree.root = .ok (.ok text) := by
  have htree : (Tree.ofDocument default).isOk = true := by decide +kernel
  cases h : Tree.ofDocument default with
  | error e =>
    rw [h] at htree
    cases htree
  | ok tree =>
    have hdecode : Document.decode .yaml "kind: CompilationUnit\n" = .ok default := by
      decide +kernel
    refine ⟨tree, ⟨_, _, .yaml, default, rfl, rfl, rfl, hdecode, h⟩, ?_⟩
    have hdocument : tree.root.toDocument = default := (Tree.toDocument_of_ofDocument h).1
    have hcode : Printer.print {} tree.root = .ok "\n" := by
      rw [Printer.print_eq, hdocument]
      rfl
    intro e he
    rcases Exporter.mem_standard_iff.1 he with rfl | rfl | rfl | rfl
    · refine ⟨"\n", ?_⟩
      simp only [Exporter.code, hcode]
    · exact ⟨_, rfl⟩
    · refine ⟨"kind: CompilationUnit\nattributes: \x7b\x7d\nchildren: []\n", ?_⟩
      have hencode : Document.encode .yaml default =
          .ok "kind: CompilationUnit\nattributes: \x7b\x7d\nchildren: []\n" := by decide +kernel
      simp only [Exporter.tree, hdocument, hencode]
      rfl
    · exact ⟨_, rfl⟩

/-- Nothing stands at the two places on the way to a new directory. -/
theorem clear_squatted : squatted.Clear (Path.components "new/deep") := by
  apply Clear.of_entry?_eq_none
  have hway : visited [] (Path.components "new/deep") = [["new"], ["new", "deep"]] := rfl
  rw [hway]
  decide

/-- A missing source, an output directory below a file, one that is not there
    yet, and an artifact whose name is taken. -/
theorem run_writes_or_reports_squatted :
    (∃ outcome, (storage.analyze none {} "missing.yaml" "out").run squatted =
        (outcome, squatted) ∧ runExitCode outcome = 1) ∧
    (∃ outcome, (storage.analyze none {} "in.yaml" "blocked/out").run squatted =
        (outcome, squatted) ∧ runExitCode outcome = 1) ∧
    (∃ report t', (storage.analyze none {} "in.yaml" "new/deep").run squatted =
        (.ok (.ok report), t') ∧ squatted.entry? ["new"] = none ∧
      runExitCode (.ok (.ok report)) = 0 ∧ t'.isFile "new/deep/stats.txt" = true) ∧
    ∃ report t', (storage.analyze none {} "in.yaml" "out").run squatted =
        (.ok (.ok report), t') ∧
      runExitCode (.ok (.ok report)) = 2 ∧ "ast.dot" ∉ report.written ∧
      "stats.txt" ∈ report.written := by
  obtain ⟨tree, htree, hrendered⟩ := parses_squatted
  have hroom := htree.room_of_rendered hrendered
  have hstatistics : Exporter.statistics ∈ exporters {} := by
    simp [exporters, Exporter.standard]
  refine ⟨?_, ?_, ?_, ?_⟩
  · have hmissing : squatted.SourceFails none "missing.yaml" (.notFound "missing.yaml") := by
      apply SourceFails.missing
      intro contents h
      cases h
    obtain ⟨outcome, hrun, -, hcode⟩ :=
      (run_writes_or_reports squatted none {} "missing.yaml" "out").2.1 _ hmissing
    exact ⟨outcome, hrun, hcode⟩
  · have hmake : (storage.ensureDirectories "blocked/out").run squatted =
        (.error .notDirectory, squatted) := rfl
    obtain ⟨outcome, hrun, -, hcode, -⟩ :=
      (run_writes_or_reports squatted none {} "in.yaml" "blocked/out").2.2.2.1 tree _ _ htree hmake
    exact ⟨outcome, hrun, hcode⟩
  · obtain ⟨-, -, hclear, -, hdeliver⟩ :=
      run_writes_or_reports squatted none {} "in.yaml" "new/deep"
    obtain ⟨t₁, hmake⟩ := (hclear (by decide)).2 clear_squatted
    obtain rfl : (squatted.put ["new"] .directory).put ["new", "deep"] .directory = t₁ :=
      (Prod.mk.inj hmake).2
    obtain ⟨p, hreport, -⟩ := hdeliver tree _ htree hmake
    obtain ⟨report, t', hrun, -, hcode, hdelivers⟩ := hreport hroom
    have hleads : t'.Leads "new/deep" ["new", "deep"] :=
      Leads.mono (fun q hq => (hdelivers.directories q).2 hq) ⟨rfl, rfl⟩
    obtain rfl := Except.ok.inj (hleads.1.symm.trans hdelivers.leads.1)
    have hwritten : ∀ e ∈ exporters {}, e.artifact ∈ report.written := by
      intro e he
      refine (hdelivers.written_iff e he).2 ⟨hrendered e he, ?_⟩
      rw [Ne, hdelivers.directories]
      intro hentry
      rcases Exporter.mem_standard_iff.1 he with rfl | rfl | rfl | rfl <;> cases hentry
    refine ⟨report, t', hrun, rfl, ?_, ?_⟩
    · rw [hcode]
      exact hdelivers.success.2 hwritten
    · have hfile := hdelivers.isFile hstatistics (by decide) (hwritten _ hstatistics)
      have hpath : Path.join "new/deep" Exporter.statistics.artifact = "new/deep/stats.txt" := by
        decide
      rwa [hpath] at hfile
  · have hmake : (storage.ensureDirectories "out").run squatted = (.ok (), squatted) := rfl
    obtain ⟨p, hreport, -⟩ :=
      (run_writes_or_reports squatted none {} "in.yaml" "out").2.2.2.2 tree _ htree hmake
    obtain ⟨report, t', hrun, -, hcode, hdelivers⟩ := hreport hroom
    obtain rfl : ["out"] = p := Except.ok.inj hdelivers.leads.1
    have hgraph : Exporter.graph true ∈ exporters {} := by
      simp [exporters, Exporter.standard]
    have hnot : "ast.dot" ∉ report.written := by
      intro hwritten
      exact ((hdelivers.written_iff _ hgraph).1 hwritten).2 ((hdelivers.directories _).2 rfl)
    have hwritten : "stats.txt" ∈ report.written := by
      refine (hdelivers.written_iff _ hstatistics).2 ⟨⟨_, rfl⟩, ?_⟩
      rw [Ne, hdelivers.directories]
      intro h
      cases h
    refine ⟨report, t', hrun, ?_, hnot, hwritten⟩
    rw [hcode]
    exact hdelivers.failure.2 ⟨_, hgraph, hnot⟩

end FileTree

/-- An array of `2 ^ 62` dimensions in an initializer block. -/
def Document.manyDimensions : Document :=
  let array : Document := .node (.expression .arrayCreation)
    (Attributes.empty.insert Key.extraDims (.int 4611686018427387904)) []
  let block : Document :=
    .node (.statement .block) .empty [.node (.statement .expression) .empty [array]]
  .node .compilationUnit .empty
    [.node (.type .class) .empty [.node (.member .initializer) .empty [block]]]

namespace FileTree

/-- A source with an array of `2 ^ 62` dimensions, in JSON. -/
def manyDimensions : FileTree where
  entries := [(["in.json"], .file (Document.manyDimensions.encodeJson.toUTF8))]

theorem parses_manyDimensions : ∃ tree, manyDimensions.Parses none "in.json" tree ∧
    (Exporter.code {}).render tree.root = .error .capacity := by
  have hok : (Tree.ofDocument Document.manyDimensions).isOk = true := by decide +kernel
  cases h : Tree.ofDocument Document.manyDimensions with
  | error e =>
    rw [h] at hok
    cases hok
  | ok tree =>
    refine ⟨tree, ⟨_, _, .json, .manyDimensions, rfl, rfl, fromUTF8?_toUTF8 _,
      Document.decode_encodeJson _, h⟩, ?_⟩
    have hdocument : tree.root.toDocument = .manyDimensions := (Tree.toDocument_of_ofDocument h).1
    have hprint : Document.manyDimensions.print {} = .error (.panicked .capacity) := by
      decide +kernel
    rw [Exporter.code_render_eq_error_iff, Printer.print_eq, hdocument, hprint]

/-- The source is read and the directory is made, and then the run ends without
    a report and without any artifact. -/
theorem dimensions_end_run :
    ∃ tree t₁, manyDimensions.Parses none "in.json" tree ∧
      (storage.ensureDirectories "out").run manyDimensions = (.ok (), t₁) ∧
      (storage.analyze none {} "in.json" "out").run manyDimensions = (.error .capacity, t₁) ∧
      runExitCode (.error .capacity) = 101 ∧
      ∀ name ∈ ["code.txt", "ast.dot", "ast.yaml", "stats.txt"],
        t₁.isFile (Path.join "out" name) = false := by
  obtain ⟨tree, htree, hcode⟩ := parses_manyDimensions
  have hmake : (storage.ensureDirectories "out").run manyDimensions =
      (.ok (), manyDimensions.put ["out"] .directory) := rfl
  refine ⟨tree, _, htree, hmake, ?_, rfl, ?_⟩
  · have hrun : (Pipeline.run (storage.sink "out") ({} : Config).parallel (exporters {})
        tree.root).run (manyDimensions.put ["out"] .directory) = (.error .capacity, _) :=
      (Pipeline.run_of_first_panic _ hcode _ _).1
    exact run_analyze_of_directory htree hmake hrun
  · intro name hname
    simp only [List.mem_cons, List.not_mem_nil, or_false] at hname
    rcases hname with rfl | rfl | rfl | rfl <;> rfl

end FileTree

end JavaTree
