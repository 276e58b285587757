import JavaTree.Proofs.Analysis.Effects
import JavaTree.Proofs.Document.JsonText
import JavaTree.Proofs.Tree.RoundTrip

/-! # Analysing the tree artifact again

    The tree artifact in JSON is a source itself.  It stands for the very tree
    it was made of, however the first source was spelled, so that a second run
    on it repeats the first one: the reports agree, and so do the files.  This
    is so unless the first run panics.

    The argument goes in three steps.  A run into an empty directory is told by
    the tree alone (`FileTree.exists_run_fresh`), the tree artifact is read back
    as that tree (`FileTree.Filled.parses`), and so the second run is the first
    one in another place.

    The main statement is `FileTree.reanalysis_repeats`. -/

namespace JavaTree

/-! ## Section 1: The name tells the format -/

namespace Path

theorem fileName?_join (directory : String) {name : String} (h : IsName name) :
    fileName? (join directory name) = some name := by
  obtain ⟨hne, hdot, hdots, hslash⟩ := h
  have hsteps : steps (join directory name) = steps directory ++ [name] :=
    steps_join directory ⟨hne, hdot, hdots, hslash⟩
  have hcomponents : components (join directory name) = components directory ++ [name] := by
    rw [components, hsteps, List.filter_append, components]
    simp [hdot]
  rw [fileName?, hcomponents, List.getLast?_append_cons]
  simp [hdots]

/-- A name has the same extension in every directory. -/
theorem extension?_join (directory : String) {name : String} (h : IsName name) :
    extension? (join directory name) = extension? name := by
  have hname : fileName? name = some name := by
    have hempty : join "" name = name := by simp [join]
    have hfile := fileName?_join "" h
    rwa [hempty] at hfile
  rw [extension?, extension?, fileName?_join directory h, hname]

end Path

/-- The tree artifact, wherever it is, is taken for what it is. -/
theorem Format.ofPath?_join_tree (directory : String) (format : Format) :
    ofPath? (Path.join directory (Exporter.tree format).artifact) = some format := by
  have hname : Path.IsName (Exporter.tree format).artifact := by
    cases format <;> decide
  have hown : ofPath? (Exporter.tree format).artifact = some format := by
    cases format <;> decide
  rw [ofPath?, Path.extension?_join directory hname]
  exact hown

/-! ## Section 2: Runs into an empty directory -/

/-- What becomes of an exporter if nothing stands in its way. -/
def Exporter.answer (root : Cursor) (e : Exporter) : Except Panic Outcome :=
  (e.render root).map fun text => ⟨e.artifact, text.map fun _ => ()⟩

/-- What a directory then holds under the name of the artifact. -/
def Exporter.entry (root : Cursor) (e : Exporter) : Except StorageError Entry :=
  match e.render root with
  | .ok (.ok text) => .ok (.file text.toUTF8)
  | _ => .error .notFound

namespace FileTree

/-- Every file of the one tree is a file of the other, with the same
    contents. -/
def KeepsFiles (t t' : FileTree) : Prop :=
  ∀ p contents, t.FileAt p contents → t'.FileAt p contents

/-- A file in a directory stays where it is. -/
theorem find_join_mono {t t' : FileTree} {directory : String} {p : Place}
    (hleads : t.Leads directory p) {name : String} (hname : Path.IsName name)
    {contents : ByteArray} (hfile : t.find (Path.join directory name) = .ok (.file contents))
    (hdirectories : t.KeepsDirectories t') (hfiles : t.KeepsFiles t') :
    t'.find (Path.join directory name) = .ok (.file contents) := by
  have hentry : t.FileAt (p ++ [name]) contents := by
    rw [find_join hleads hname] at hfile
    rw [FileAt]
    cases h : t.entry? (p ++ [name]) with
    | none =>
      rw [h] at hfile
      cases hfile
    | some entry =>
      rw [h] at hfile
      rw [Except.ok.inj hfile]
  have hentry' : t'.entry? (p ++ [name]) = some (.file contents) := hfiles _ _ hentry
  rw [find_join (hleads.mono hdirectories) hname, hentry']

/-- A directory that is there or can be made, and holds nothing. -/
def Fresh (t : FileTree) (directory : String) : Prop :=
  ∃ t₁ p, (storage.ensureDirectories directory).run t = (.ok (), t₁) ∧ t₁.Leads directory p ∧
    ∀ name, t₁.entry? (p ++ [name]) = none

/-- What a file tree `t` has become if the exporters have filled an empty
    directory. -/
structure Filled (t : FileTree) (directory : String) (exporters : List Exporter) (root : Cursor)
    (report : Report) (t' : FileTree) : Prop where
  /-- Whether an artifact was written is told by its exporter alone. -/
  outcomes : report.outcomes.map .ok = exporters.map (·.answer root)
  /-- What could be rendered was written. -/
  written_iff : ∀ e ∈ exporters, e.artifact ∈ report.written ↔
    ∃ text, e.render root = .ok (.ok text)
  /-- The path still leads to the directory. -/
  leads : ∃ p, t'.Leads directory p
  /-- The directory holds the artifacts. -/
  holds : ∀ e ∈ exporters, t'.find (Path.join directory e.artifact) = e.entry root
  /-- No file was changed or removed. -/
  files : t.KeepsFiles t'
  /-- No directory was removed. -/
  directories : t.KeepsDirectories t'

/-- There were no files in a directory that is empty now, as far as only
    directories were made. -/
theorem not_fileAt_of_empty {t t₁ : FileTree} {p : Place} (hgrows : t.Grows t₁)
    (hempty : ∀ name, t₁.entry? (p ++ [name]) = none) (name : String) (contents : ByteArray) :
    ¬t.FileAt (p ++ [name]) contents := by
  intro hfile
  have h := (hgrows.fileAt_iff _ _).2 hfile
  rw [FileAt, hempty] at h
  cases h

/-- In an empty directory nothing stands in the way of an exporter. -/
theorem verdict_of_empty {t : FileTree} {directory : String} {p : Place}
    (hempty : ∀ name, t.entry? (p ++ [name]) = none) (root : Cursor) (e : Exporter) :
    (t.depot directory p).verdict root e = e.answer root := by
  have hrefusal : (t.depot directory p).refusal? e.artifact = none := by
    refine refusal?_eq_none_iff.2 ?_
    rw [hempty]
    rintro ⟨⟩
  unfold Pipeline.Depot.verdict Pipeline.Depot.outcome Exporter.answer
  rw [hrefusal]
  congr 1
  funext text
  cases text <;> rfl

section Deliveries

variable {t t₁ t' : FileTree} {directory : String} {p : Place} {es : List Exporter}
  {root : Cursor} {report : Report} {e : Exporter}

theorem Delivers.not_directory_of_empty (h : Delivers t t₁ directory p es root report t')
    (hempty : ∀ name, t₁.entry? (p ++ [name]) = none) (name : String) :
    t'.entry? (p ++ [name]) ≠ some .directory := by
  rw [Ne, h.directories, hempty]
  rintro ⟨⟩

theorem Delivers.written_iff_of_empty (h : Delivers t t₁ directory p es root report t')
    (hempty : ∀ name, t₁.entry? (p ++ [name]) = none) (he : e ∈ es) :
    e.artifact ∈ report.written ↔ ∃ text, e.render root = .ok (.ok text) := by
  rw [h.written_iff e he]
  exact and_iff_left (h.not_directory_of_empty hempty e.artifact)

/-- An artifact that was delivered into an empty directory is found there, and
    one that could not be rendered is not. -/
theorem Delivers.find_of_empty (h : Delivers t t₁ directory p es root report t')
    (hgrows : t.Grows t₁) (hempty : ∀ name, t₁.entry? (p ++ [name]) = none) (he : e ∈ es)
    (hname : Path.IsName e.artifact) :
    t'.find (Path.join directory e.artifact) = e.entry root := by
  have hwritten := h.written_iff_of_empty hempty he
  rw [find_join h.leads hname]
  by_cases hrender : ∃ text, e.render root = .ok (.ok text)
  · obtain ⟨-, text, htext, hfile⟩ := h.stored e he (hwritten.2 hrender)
    rw [Exporter.entry, htext, hfile]
  · have hentry : e.entry root = .error .notFound := by
      unfold Exporter.entry
      split
      · rename_i text htext
        exact absurd ⟨text, htext⟩ hrender
      · rfl
    -- The artifacts that were written have other names, so nothing has come here.
    have hother : ∀ name ∈ report.written, p ++ [name] ≠ p ++ [e.artifact] := by
      intro name hmem heq
      obtain rfl : name = e.artifact := by simpa using heq
      exact hrender (hwritten.1 hmem)
    rw [hentry]
    cases hplace : t'.entry? (p ++ [e.artifact]) with
    | none => rfl
    | some entry =>
      cases entry with
      | directory => exact absurd hplace (h.not_directory_of_empty hempty e.artifact)
      | file contents =>
        have hbefore := (h.unchanged _ hother contents).1 hplace
        exact absurd hbefore (not_fileAt_of_empty hgrows hempty e.artifact contents)

end Deliveries

/-- A run into an empty directory is told by the tree alone. -/
theorem exists_run_fresh {t : FileTree} {forced : Option Format} {config : Config}
    {source directory : String} {tree : Tree} (htree : t.Parses forced source tree)
    (hfresh : t.Fresh directory)
    (hroom : ¬(maxBytes < config.layout.indentWidth ∨ tree.root.Overflows)) :
    ∃ report t', (storage.analyze forced config source directory).run t = (.ok (.ok report), t') ∧
      t.Filled directory (exporters config) tree.root report t' := by
  obtain ⟨t₁, p, hmake, hleads, hempty⟩ := hfresh
  have hgrows : t.Grows t₁ := by
    have h := (t.run_ensureDirectories directory).1
    rwa [hmake] at h
  have hpanics := Exporter.standard_panics_iff (n := tree.root) htree.built config.layout
    config.styled config.treeFormat
  obtain ⟨report, t', hrun, hdelivers⟩ := exists_delivers hgrows hleads
    (fun _ he => isName_of_mem_exporters he)
    (Exporter.nodup_standard config.layout config.styled config.treeFormat)
    (fun e he hpanic => hroom (hpanics.1 ⟨e, he, hpanic⟩)) config.parallel
  refine ⟨report, t', run_analyze_of_directory htree hmake hrun, ?_⟩
  exact {
    outcomes := by
      rw [hdelivers.outcomes]
      exact List.map_congr_left fun e _ => verdict_of_empty hempty tree.root e
    written_iff := by
      intro e he
      exact hdelivers.written_iff_of_empty hempty he
    leads := ⟨p, hdelivers.leads⟩
    holds := by
      intro e he
      exact hdelivers.find_of_empty hgrows hempty he (isName_of_mem_exporters he)
    files := by
      intro q contents hfile
      refine (hdelivers.unchanged q ?_ contents).2 hfile
      rintro name - rfl
      exact not_fileAt_of_empty hgrows hempty name contents hfile
    directories := by
      intro q hq
      exact (hdelivers.directories q).2 (hgrows.keepsDirectories q hq) }

/-- Two reports on one tree are the same. -/
theorem Filled.report_eq {t t' u u' : FileTree} {first second : String} {es : List Exporter}
    {root : Cursor} {report report' : Report} (h : t.Filled first es root report t')
    (h' : u.Filled second es root report' u') : report = report' := by
  have hmap : report.outcomes.map (Except.ok (ε := Panic)) = report'.outcomes.map .ok := by
    rw [h.outcomes, h'.outcomes]
  exact congrArg Report.mk (List.map_injective_iff.2 (fun _ _ => Except.ok.inj) hmap)

/-- If the source code panics, a run in turn leaves an empty directory empty. -/
theorem exists_run_fresh_of_panic {t : FileTree} {forced : Option Format} {config : Config}
    {source directory : String} {tree : Tree} (htree : t.Parses forced source tree)
    (hfresh : t.Fresh directory) {panic : Panic}
    (hpanic : (Exporter.code config.layout).render tree.root = .error panic) :
    ∃ t', (storage.analyze forced config source directory).run t = (.error panic, t') ∧
      (config.parallel = false → ∀ name, Path.IsName name →
        t'.find (Path.join directory name) = .error .notFound) := by
  obtain ⟨t₁, p, hmake, hleads, hempty⟩ := hfresh
  have hgrows : t.Grows t₁ := by
    have h := (t.run_ensureDirectories directory).1
    rwa [hmake] at h
  have hserves : ∀ e ∈ exporters config, Path.IsName e.artifact :=
    fun _ he => isName_of_mem_exporters he
  obtain ⟨t', hrun, hturn, -⟩ := exists_run_of_first_panic hgrows hleads hserves
    (Exporter.nodup_standard config.layout config.styled config.treeFormat) hpanic config.parallel
  refine ⟨t', run_analyze_of_directory htree hmake hrun, ?_⟩
  intro hparallel name hname
  rw [hturn hparallel, find_join hleads hname, hempty]

/-! ## Section 3: The artifact is read back -/

theorem parses_of_readTree {t : FileTree} {forced : Option Format} {source : String} {tree : Tree}
    (h : ((storage.readTree forced source).run t).1 = .ok tree) : t.Parses forced source tree := by
  rw [run_readTree] at h
  rcases t.sourceFails_or_parses forced source with ⟨e, he⟩ | ⟨tree', htree'⟩
  · rw [parse_of_sourceFails he] at h
    cases h
  · rw [parse_of_parses htree'] at h
    obtain rfl := Except.ok.inj h
    exact htree'

/-- A tree that was read is the tree of its own document. -/
theorem Parses.ofDocument_toDocument {t : FileTree} {forced : Option Format} {source : String}
    {tree : Tree} (h : t.Parses forced source tree) :
    Tree.ofDocument tree.root.toDocument = .ok tree := by
  obtain ⟨_, _, _, d, -, -, -, -, htree⟩ := h
  have hd : tree.root.toDocument = d := (Tree.toDocument_of_ofDocument htree).1
  rw [hd]
  exact htree

/-- The tree artifact of a run is a source of the same tree. -/
theorem Filled.parses {t t' : FileTree} {directory : String} {config : Config} {tree : Tree}
    {report : Report} (h : t.Filled directory (exporters config) tree.root report t')
    (hformat : config.treeFormat = .json) (htree : Tree.ofDocument tree.root.toDocument = .ok tree)
    {forced : Option Format} (hforced : forced ≠ some .yaml) :
    t'.Parses forced (Path.join directory "ast.json") tree := by
  have hmem : Exporter.tree .json ∈ exporters config := by
    simp [exporters, Exporter.standard, hformat]
  have hjson : forced.or (Format.ofPath? (Path.join directory "ast.json")) = some .json := by
    have hpath : Format.ofPath? (Path.join directory "ast.json") = some .json :=
      Format.ofPath?_join_tree directory .json
    cases forced with
    | none => exact hpath
    | some format =>
      cases format with
      | yaml => exact absurd rfl hforced
      | json => rfl
  exact ⟨_, _, .json, tree.root.toDocument, h.holds _ hmem, hjson, fromUTF8?_toUTF8 _,
    Document.decode_encodeJson _, htree⟩

/-! ## Section 4: The second run -/

/-- Whatever source is accepted, a run into an empty directory with the tree
    artifact in JSON writes it, and a second run on that artifact, into any
    other empty directory, has the same report and leaves the same files.  Those
    of the first run stay.

    This is so unless the first run panics for want of room.  Then it has no
    report, and in turn it does not write the tree artifact. -/
theorem reanalysis_repeats (t : FileTree) (forced : Option Format) (config : Config)
    (source first : String) (tree : Tree) (hformat : config.treeFormat = .json)
    (htree : ((storage.readTree forced source).run t).1 = .ok tree) (hfirst : t.Fresh first) :
    (¬(maxBytes < config.layout.indentWidth ∨ tree.root.Overflows) →
      ∃ report t₁,
        (storage.analyze forced config source first).run t = (.ok (.ok report), t₁) ∧
        "ast.json" ∈ report.written ∧
        ∀ forced' second, forced' ≠ some .yaml → t₁.Fresh second →
          ∃ t₂, (storage.analyze forced' config (Path.join first "ast.json") second).run t₁ =
              (.ok (.ok report), t₂) ∧
            ∀ e ∈ exporters config,
              t₂.find (Path.join second e.artifact) = t₁.find (Path.join first e.artifact) ∧
              (e.artifact ∈ report.written →
                ∃ contents, t₁.find (Path.join first e.artifact) = .ok (.file contents) ∧
                  t₂.find (Path.join first e.artifact) = .ok (.file contents))) ∧
    (maxBytes < config.layout.indentWidth ∨ tree.root.Overflows →
      ∃ t₁, (storage.analyze forced config source first).run t = (.error .capacity, t₁) ∧
        (config.parallel = false →
          t₁.find (Path.join first "ast.json") = .error .notFound)) := by
  have hparses := parses_of_readTree htree
  refine ⟨?_, ?_⟩
  · intro hroom
    obtain ⟨report, t₁, hrun, hfilled⟩ := exists_run_fresh hparses hfirst hroom
    refine ⟨report, t₁, hrun, ?_, ?_⟩
    · have hmem : Exporter.tree .json ∈ exporters config := by
        simp [exporters, Exporter.standard, hformat]
      exact (hfilled.written_iff _ hmem).2 ⟨_, rfl⟩
    · intro forced' second hforced' hsecond
      -- The artifact stands for the same tree, and the tree tells the rest of the run.
      have hagain := hfilled.parses hformat hparses.ofDocument_toDocument hforced'
      obtain ⟨report', t₂, hrun', hfilled'⟩ := exists_run_fresh hagain hsecond hroom
      obtain rfl : report' = report := hfilled'.report_eq hfilled
      refine ⟨t₂, hrun', ?_⟩
      intro e he
      refine ⟨?_, ?_⟩
      · rw [hfilled'.holds e he, hfilled.holds e he]
      · -- The second run changes no file that was there, those of the first run included.
        intro hwritten
        obtain ⟨text, htext⟩ := (hfilled.written_iff e he).1 hwritten
        have hfile : t₁.find (Path.join first e.artifact) = .ok (.file text.toUTF8) := by
          rw [hfilled.holds e he, Exporter.entry, htext]
        obtain ⟨p, hleads⟩ := hfilled.leads
        exact ⟨text.toUTF8, hfile, find_join_mono hleads (isName_of_mem_exporters he) hfile
          hfilled'.directories hfilled'.files⟩
  · intro hroom
    have hprint := (Printer.print_panics_iff hparses.built.linked config.layout .capacity).2
      ⟨rfl, hroom⟩
    obtain ⟨t₁, hrun, hturn⟩ := exists_run_fresh_of_panic hparses hfirst
      (Exporter.code_render_eq_error_iff.2 hprint)
    refine ⟨t₁, hrun, fun hparallel => ?_⟩
    exact hturn hparallel "ast.json" (by decide)

/-- Whether a directory is there or can be made, and no entry is in it. -/
def isFresh (t : FileTree) (directory : String) : Bool :=
  match (storage.ensureDirectories directory).run t with
  | (.error _, _) => false
  | (.ok (), t₁) =>
    match t₁.follow [] (Path.steps directory) with
    | .error _ => false
    | .ok p => t₁.entries.all fun entry => entry.1.dropLast ≠ p

theorem fresh_of_isFresh {t : FileTree} {directory : String} (h : t.isFresh directory = true) :
    t.Fresh directory := by
  obtain ⟨-, hleads⟩ := t.run_ensureDirectories directory
  rw [isFresh] at h
  rcases hrun : (storage.ensureDirectories directory).run t with ⟨result, t₁⟩
  rw [hrun] at h hleads
  cases result with
  | error e => cases h
  | ok _ =>
    obtain ⟨p, hp⟩ := hleads rfl
    -- The place that was followed to is the one the path leads to.
    dsimp only at h
    rw [hp.1] at h
    refine ⟨t₁, p, hrun, hp, ?_⟩
    intro name
    have hne : p ++ [name] ≠ [] := by simp
    unfold entry?
    rw [if_neg hne, List.lookup_eq_none_iff]
    intro entry hentry
    have hoff : entry.1.dropLast ≠ p := by simpa using List.all_eq_true.1 h entry hentry
    have hq : p ++ [name] ≠ entry.1 := by
      intro heq
      rw [← heq, List.dropLast_concat] at hoff
      exact hoff rfl
    simpa using hq

/-- A source that shares its attributes between two nodes, has a number in
    base sixteen and names its kind last. -/
def shared : FileTree where
  entries :=
    [(["in.yaml"], .file (String.toUTF8
      ("children:\n- attributes: &all\n    name: \"A\"\n    line: 0x1f\n  kind: ClassDecl\n" ++
        "attributes: *all\n? kind\n: CompilationUnit\n")))]

/-- Its tree artifact tells all of it, and is its own tree artifact. -/
theorem reanalysis_repeats_shared :
    ∃ report t₁ t₂,
      (storage.analyze none { treeFormat := .json } "in.yaml" "one").run shared =
        (.ok (.ok report), t₁) ∧
      (storage.analyze none { treeFormat := .json } "one/ast.json" "two").run t₁ =
        (.ok (.ok report), t₂) ∧
      "ast.json" ∈ report.written ∧ t₁.isFile "one/ast.json" = true ∧
      t₂.find "two/ast.json" = t₁.find "one/ast.json" ∧
      t₂.find "two/code.txt" = t₁.find "one/code.txt" := by
  have hfresh : ((storage.readTree none "in.yaml").run shared).1.isOk = true ∧
      isFresh shared "one" = true ∧
      runExitCode ((storage.analyze none { treeFormat := .json } "in.yaml" "one").run shared).1
        = 0 ∧
      isFresh ((storage.analyze none { treeFormat := .json } "in.yaml" "one").run shared).2
        "two" = true := by
    decide +kernel
  obtain ⟨hread, hone, hcode, htwo⟩ := hfresh
  obtain ⟨tree, htree⟩ :
      ∃ tree, ((storage.readTree none "in.yaml").run shared).1 = .ok tree := by
    cases h : ((storage.readTree none "in.yaml").run shared).1 with
    | ok tree => exact ⟨tree, rfl⟩
    | error e =>
      rw [h] at hread
      cases hread
  obtain ⟨hcalm, hpanic⟩ :=
    reanalysis_repeats shared none { treeFormat := .json } "in.yaml" "one" tree rfl htree
      (fresh_of_isFresh hone)
  have hroom : ¬(maxBytes < ({ treeFormat := .json } : Config).layout.indentWidth ∨
      tree.root.Overflows) := by
    intro h
    obtain ⟨t₁, hrun, -⟩ := hpanic h
    rw [hrun] at hcode
    exact absurd (show 101 = 0 from hcode) (by decide)
  obtain ⟨report, t₁, hrun, hwritten, hagain⟩ := hcalm hroom
  rw [hrun] at htwo
  obtain ⟨t₂, hrun', hsame⟩ := hagain none "two" (by simp) (fresh_of_isFresh htwo)
  have hjson := hsame (Exporter.tree .json) (by simp [exporters, Exporter.standard])
  have hsource := hsame (Exporter.code {}) (by simp [exporters, Exporter.standard])
  obtain ⟨contents, hfile, -⟩ := hjson.2 hwritten
  exact ⟨report, t₁, t₂, hrun, hrun', hwritten, isFile_of_find hfile, hjson.1, hsource.1⟩

/-- A source with an array of very many dimensions is accepted, and yet a run
    on it writes no tree artifact that could be analysed again. -/
theorem dimensions_leave_no_tree :
    ∃ tree t₁, ((storage.readTree none "in.json").run manyDimensions).1 = .ok tree ∧
      manyDimensions.Fresh "one" ∧
      (storage.analyze none { treeFormat := .json } "in.json" "one").run manyDimensions =
        (.error .capacity, t₁) ∧
      t₁.find "one/ast.json" = .error .notFound := by
  obtain ⟨tree, htree, hpanic⟩ := parses_manyDimensions
  have hfresh : manyDimensions.Fresh "one" := fresh_of_isFresh rfl
  have hcode : (Exporter.code ({ treeFormat := .json } : Config).layout).render tree.root =
      .error .capacity := hpanic
  obtain ⟨t₁, hrun, hturn⟩ := exists_run_fresh_of_panic htree hfresh hcode
  refine ⟨tree, t₁, ?_, hfresh, hrun, hturn rfl "ast.json" (by decide)⟩
  rw [run_readTree, parse_of_parses htree]

end FileTree

end JavaTree
