import JavaTree.Pipeline.Shelf
import JavaTree.Proofs.Print.Failure

/-! # Runs that break off

    A run keeps the failures of its exporters apart, but not a panic: this
    breaks off the whole run, and there is no report.  Where no exporter
    panics, it makes no difference whether they run in turn or together
    (`Pipeline.runInTurn_eq`).  Where one does, those behind it have no share
    of a run in turn (`Pipeline.runInTurn_of_panic`).

    The main statement is `Pipeline.run_breaks_off_iff`: a run breaks off
    exactly if the printer comes to an array creation with `2 ^ 62` dimensions
    or more, and otherwise it reports one outcome for each exporter.  Memory
    has no other limit here. -/

namespace JavaTree

/-! ## Section 1: Exporters that panic -/

/-- There is a panic instead of a text. -/
def Exporter.PanicsAt (e : Exporter) (root : Cursor) : Prop := ∃ p, e.render root = .error p

/-- Without a panic there is a text, or a failure that is reported. -/
theorem Exporter.exists_of_not_panicsAt {e : Exporter} {root : Cursor} (h : ¬e.PanicsAt root) :
    ∃ text, e.render root = .ok text := by
  cases hrender : e.render root with
  | error p => exact absurd ⟨p, hrender⟩ h
  | ok text => exact ⟨text, rfl⟩

/-- The source code panics where the printer does. -/
theorem Exporter.code_render_eq_error_iff {layout : Layout} {root : Cursor} {p : Panic} :
    (code layout).render root = .error p ↔ Printer.print layout root = .error (.panicked p) := by
  unfold code
  dsimp only
  split <;> simp_all

theorem Exporter.mem_standard_iff {layout : Layout} {styled : Bool} {format : Format}
    {e : Exporter} : e ∈ standard layout styled format ↔
      e = code layout ∨ e = graph styled ∨ e = tree format ∨ e = statistics := by
  simp [standard]

/-- Of the standard exporters only the source code panics. -/
theorem Exporter.panicsAt_of_mem_standard {layout : Layout} {styled : Bool} {format : Format}
    {e : Exporter} (he : e ∈ standard layout styled format) {n : Cursor} (h : e.PanicsAt n) :
    e = code layout := by
  obtain ⟨p, hp⟩ := h
  rcases mem_standard_iff.1 he with rfl | rfl | rfl | rfl
  · rfl
  · cases hp
  · cases hp
  · cases hp

/-- The standard exporters panic at a node of a built tree for want of room
    only: for the spaces of a level, or for the brackets of an array. -/
theorem Exporter.standard_panics_iff {n : Cursor} (built : n.tree.Built) (layout : Layout)
    (styled : Bool) (format : Format) :
    (∃ e ∈ standard layout styled format, e.PanicsAt n) ↔
      maxBytes < layout.indentWidth ∨ n.Overflows := by
  constructor
  · rintro ⟨e, he, hpanics⟩
    obtain rfl := panicsAt_of_mem_standard he hpanics
    obtain ⟨p, hp⟩ := hpanics
    exact ((Printer.print_panics_iff built.linked layout p).1 (code_render_eq_error_iff.1 hp)).2
  · intro h
    have hprint := (Printer.print_panics_iff built.linked layout .capacity).2 ⟨rfl, h⟩
    exact ⟨code layout, List.mem_cons_self, .capacity, code_render_eq_error_iff.2 hprint⟩

/-- Two actions after each other. -/
theorem run_bind_eq {σ α β : Type} (x : StateM σ α) (f : α → StateM σ β) (s : σ) :
    (x >>= f).run s = (f (x.run s).1).run (x.run s).2 := rfl

/-- An action for each element of a list. -/
theorem run_mapM_cons {σ α β : Type} (f : α → StateM σ β) (x : α) (xs : List α) (s : σ) :
    ((x :: xs).mapM f).run s =
      (((f x).run s).1 :: ((xs.mapM f).run ((f x).run s).2).1,
        ((xs.mapM f).run ((f x).run s).2).2) := by
  rw [List.mapM_cons]
  rfl

/-- Answers that are no panics come together. -/
theorem mapM_id_map_ok {α : Type} (as : List α) :
    (as.map Except.ok).mapM id = (.ok as : Except Panic (List α)) := by
  induction as with
  | nil => rfl
  | cons a as ih =>
    rw [List.map_cons, List.mapM_cons, ih]
    rfl

/-- The first panic among some answers is the panic of all. -/
theorem mapM_id_of_error {α : Type} (as : List α) (p : Panic) (rest : List (Except Panic α)) :
    (as.map Except.ok ++ Except.error p :: rest).mapM id = .error p := by
  induction as with
  | nil => rfl
  | cons a as ih =>
    rw [List.map_cons, List.cons_append, List.mapM_cons, ih]
    rfl

namespace Pipeline

/-! ## Section 2: In turn and together -/

section Turns

variable {m : Type → Type} [Monad m] {sink : Sink m} {root : Cursor}

theorem exportOne_of_error {e : Exporter} {p : Panic} (h : e.render root = .error p) :
    exportOne sink root e = pure (.error p) := by
  rw [exportOne, h]
  rfl

variable [LawfulMonad m]

/-- Tasks of their own are no different from rendering on the spot. -/
theorem runTogether_eq (exporters : List Exporter) :
    runTogether sink root exporters = do
      let answers ← exporters.mapM (exportOne sink root)
      return answers.mapM id := by
  rw [runTogether, List.mapM_map]
  rfl

theorem exportOne_of_ok {e : Exporter} {text : Except ExportError String}
    (h : e.render root = .ok text) :
    exportOne sink root e = Except.ok <$> deliver sink e.artifact text := by
  rw [exportOne, h, map_eq_pure_bind]
  rfl

/-- Where no exporter panics, all of them have their shares in turn, too. -/
theorem runInTurn_eq {exporters : List Exporter} (h : ∀ e ∈ exporters, ¬e.PanicsAt root) :
    runInTurn sink root exporters = runTogether sink root exporters := by
  rw [runTogether_eq]
  induction exporters with
  | nil =>
    rw [runInTurn, List.mapM_nil, pure_bind]
    rfl
  | cons e rest ih =>
    obtain ⟨text, htext⟩ := Exporter.exists_of_not_panicsAt (h e List.mem_cons_self)
    have hrest := ih fun f hf => h f (List.mem_cons_of_mem e hf)
    rw [runInTurn, List.mapM_cons, exportOne_of_ok htext, hrest]
    simp only [map_eq_pure_bind, bind_assoc, pure_bind, List.mapM_cons, id]
    rfl

/-- An exporter that panics ends a run in turn, after those in front of it have
    had their shares. -/
theorem runInTurn_of_panic {before : List Exporter} {e : Exporter} {p : Panic}
    (h : ∀ f ∈ before, ¬f.PanicsAt root) (he : e.render root = .error p)
    (after : List Exporter) :
    runInTurn sink root (before ++ e :: after) = do
      let _ ← runInTurn sink root before
      return .error p := by
  induction before with
  | nil =>
    show (exportOne sink root e >>= _) = (pure _ >>= _)
    rw [exportOne_of_error he, pure_bind, pure_bind]
  | cons f before ih =>
    obtain ⟨text, htext⟩ := Exporter.exists_of_not_panicsAt (h f List.mem_cons_self)
    have hrest := ih fun g hg => h g (List.mem_cons_of_mem f hg)
    rw [List.cons_append, runInTurn, runInTurn, exportOne_of_ok htext, hrest]
    simp only [map_eq_pure_bind, bind_assoc, pure_bind]
    rfl

/-- Where no exporter panics, a run is the same in turn and in parallel. -/
theorem run_eq {exporters : List Exporter} (h : ∀ e ∈ exporters, ¬e.PanicsAt root)
    (parallel : Bool) : run sink parallel exporters root = run sink true exporters root := by
  cases parallel with
  | true => rfl
  | false => rw [run, run, if_neg Bool.false_ne_true, if_pos rfl, runInTurn_eq h]

end Turns

section States

variable {σ : Type} {sink : Sink (StateM σ)} {root : Cursor}

/-- A text that could be rendered is handed to the sink, whose answer is the
    outcome. -/
theorem run_deliver_ok {artifact text : String} {s s' : σ} {r : Except StorageError Unit}
    (h : (sink artifact text).run s = (r, s')) :
    (deliver sink artifact (.ok text)).run s = (⟨artifact, r.mapError .storage⟩, s') := by
  show (do return ⟨artifact, (← sink artifact text).mapError .storage⟩ :
    StateM σ Outcome).run s = _
  rw [StateT.run_bind, h]
  rfl

theorem artifact_deliver (artifact : String) (text : Except ExportError String) (s : σ) :
    ((deliver sink artifact text).run s).1.artifact = artifact := by
  cases text with
  | error x => rfl
  | ok text =>
    have hsink : (sink artifact text).run s =
        (((sink artifact text).run s).1, ((sink artifact text).run s).2) := rfl
    rw [run_deliver_ok hsink]

/-- What a run in parallel answers is put together from the answers of its
    exporters. -/
theorem run_parallel_eq {exporters : List Exporter} {answers : List (Except Panic Outcome)}
    {s s' : σ} (h : (exporters.mapM (exportOne sink root)).run s = (answers, s')) :
    (run sink true exporters root).run s = ((answers.mapM id).map Report.mk, s') := by
  rw [run, if_pos rfl, runTogether_eq, run_bind_eq, run_bind_eq, h]
  rfl

variable (sink)

/-- Exporters that do not panic have one outcome each. -/
theorem exists_outcomes {exporters : List Exporter} (h : ∀ e ∈ exporters, ¬e.PanicsAt root)
    (s : σ) : ∃ (outcomes : List Outcome) (s' : σ),
      (exporters.mapM (exportOne sink root)).run s = (outcomes.map .ok, s') ∧
        outcomes.map (·.artifact) = exporters.map (·.artifact) := by
  induction exporters generalizing s with
  | nil => exact ⟨[], s, rfl, rfl⟩
  | cons e rest ih =>
    obtain ⟨text, htext⟩ := Exporter.exists_of_not_panicsAt (h e List.mem_cons_self)
    obtain ⟨outcomes, s', hrun, hartifacts⟩ :=
      ih (fun f hf => h f (List.mem_cons_of_mem e hf)) ((deliver sink e.artifact text).run s).2
    refine ⟨((deliver sink e.artifact text).run s).1 :: outcomes, s', ?_, ?_⟩
    · have hone : (exportOne sink root e).run s =
          (.ok ((deliver sink e.artifact text).run s).1,
            ((deliver sink e.artifact text).run s).2) := by
        rw [exportOne_of_ok htext]
        rfl
      rw [run_mapM_cons, hone, hrun, List.map_cons]
    · rw [List.map_cons, List.map_cons, artifact_deliver, hartifacts]

/-- Where no exporter panics there is a report, with one outcome for each. -/
theorem exists_run_of_calm {exporters : List Exporter} (h : ∀ e ∈ exporters, ¬e.PanicsAt root)
    (s : σ) : ∃ (report : Report) (s' : σ),
      report.outcomes.map (·.artifact) = exporters.map (·.artifact) ∧
      ∀ parallel, (run sink parallel exporters root).run s = (.ok report, s') := by
  obtain ⟨outcomes, s', hrun, hartifacts⟩ := exists_outcomes sink h s
  refine ⟨⟨outcomes⟩, s', hartifacts, ?_⟩
  intro parallel
  rw [run_eq h, run_parallel_eq hrun, mapM_id_map_ok]
  rfl

/-- If the first exporter panics there is no report, and in turn nothing is
    done at all. -/
theorem run_of_first_panic {e : Exporter} {p : Panic} (h : e.render root = .error p)
    (rest : List Exporter) (s : σ) :
    (run sink false (e :: rest) root).run s = (.error p, s) ∧
      ∃ s', (run sink true (e :: rest) root).run s = (.error p, s') := by
  constructor
  · rw [run, if_neg Bool.false_ne_true, runInTurn, exportOne_of_error h, pure_bind]
    rfl
  · refine ⟨((rest.mapM (exportOne sink root)).run s).2, ?_⟩
    rw [run_parallel_eq (run_mapM_cons ..), exportOne_of_error h]
    rfl

end States

/-! ## Section 3: Where a run breaks off -/

/-- One attribute can take down a run, and no other can.

    The printer repeats the spaces of a level, for which there is room at any
    width up to `maxBytes`, and the brackets of an array creation, for which
    there is room with fewer than `2 ^ 62` dimensions.  A run over a built tree
    is broken off exactly if, in postorder, the first node that is an array
    creation without room for its brackets, or lacks a child, is such an array
    creation.  Then there is no report, and in turn nothing is written.
    Otherwise the report has one outcome for each exporter, and it is the same
    in turn and in parallel. -/
theorem run_breaks_off_iff {n : Cursor} (built : n.tree.Built) {layout : Layout}
    (hwidth : layout.indentWidth ≤ maxBytes) (styled : Bool) (format : Format) {σ : Type}
    (sink : Sink (StateM σ)) (s : σ) :
    let exporters := Exporter.standard layout styled format
    (Text.copies layout.indentWidth " ").utf8ByteSize ≤ maxBytes ∧
      (∀ m : Cursor, m.Oversized ↔ m.kind = .expression .arrayCreation ∧
        maxBytes < (Text.copies (m.attributes.count Key.extraDims) "[]").utf8ByteSize) ∧
      (n.Overflows →
        (run sink false exporters n).run s = (.error .capacity, s) ∧
        (∃ s', (run sink true exporters n).run s = (.error .capacity, s')) ∧
        ∃ m, n.Contains m ∧ m.Oversized) ∧
      (¬n.Overflows → ∃ (report : Report) (s' : σ),
        report.outcomes.map (·.artifact) = exporters.map (·.artifact) ∧
        ∀ parallel, (run sink parallel exporters n).run s = (.ok report, s')) := by
  intro exporters
  refine ⟨?_, ?_, ?_, ?_⟩
  · rw [Text.utf8ByteSize_copies]
    exact layout.room_iff.2 hwidth
  · intro m
    rw [Text.utf8ByteSize_copies, ← Nat.not_le, Template.brackets_room_iff, Nat.not_lt]
    exact Iff.rfl
  · intro hover
    have hprint := (Printer.print_panics_iff built.linked layout .capacity).2 ⟨rfl, .inr hover⟩
    obtain ⟨hturn, htogether⟩ := run_of_first_panic sink
      (Exporter.code_render_eq_error_iff.2 hprint)
      [.graph styled, .tree format, .statistics] s
    exact ⟨hturn, htogether, hover.exists_oversized⟩
  · intro hgoes
    apply exists_run_of_calm
    intro e he hpanics
    rcases (Exporter.standard_panics_iff built layout styled format).1 ⟨e, he, hpanics⟩ with
      hwide | hover
    · exact absurd hwidth (Nat.not_le.2 hwide)
    · exact hgoes hover

end Pipeline

/-! ## Section 4: An array of very many dimensions -/

/-- An initializer block with two array creations, one with two dimensions
    and one with `2 ^ 62`. -/
def Builder.manyDimensions : Builder :=
  let dimensions (count : Int64) : Attributes := Attributes.empty.insert Key.extraDims (.int count)
  let block := ((new.add 0 (.type .class) .empty).add 1 (.member .initializer) .empty).add 2
    (.statement .block) .empty
  let small := (block.add 3 (.statement .expression) .empty).add 4 (.expression .arrayCreation)
    (dimensions 2)
  (small.add 3 (.statement .expression) .empty).add 6 (.expression .arrayCreation)
    (dimensions 4611686018427387904)

/-- The tree of `Builder.manyDimensions`. -/
def Tree.manyDimensions : Tree :=
  ⟨Builder.manyDimensions.arena, Builder.manyDimensions.ordered, by decide⟩

theorem Tree.built_manyDimensions : manyDimensions.Built := by
  have hreach : Builder.manyDimensions.Reachable := by
    iterate 7 refine Builder.Reachable.add ?_ (by decide) _ _
    exact .start _ _
  exact ⟨Builder.manyDimensions, hreach, Builder.finish_eq_ok_iff.2 ⟨by decide, rfl⟩⟩

/-- A node of `Tree.manyDimensions`. -/
def Cursor.manyDimensions (i : Fin 8) : Cursor :=
  ⟨Tree.manyDimensions, i, Nat.lt_of_lt_of_eq i.isLt rfl⟩

theorem Cursor.postorder_manyDimensions :
    (manyDimensions 4).postorder = [5, 4].map manyDimensions ∧
      (manyDimensions 0).postorder = [5, 4, 7, 6, 3, 2, 1, 0].map manyDimensions := by
  have h0 : (manyDimensions 0).children = [manyDimensions 1] := rfl
  have h1 : (manyDimensions 1).children = [manyDimensions 2] := rfl
  have h2 : (manyDimensions 2).children = [manyDimensions 3] := rfl
  have h3 : (manyDimensions 3).children = [manyDimensions 4, manyDimensions 6] := rfl
  have h4 : (manyDimensions 4).children = [manyDimensions 5] := rfl
  have h5 : (manyDimensions 5).children = [] := rfl
  have h6 : (manyDimensions 6).children = [manyDimensions 7] := rfl
  have h7 : (manyDimensions 7).children = [] := rfl
  constructor
  · simp only [postorder_eq, h4, h5, List.flatMap_cons, List.flatMap_nil]
    rfl
  · simp only [postorder_eq, h0, h1, h2, h3, h4, h5, h6, h7, List.flatMap_cons, List.flatMap_nil]
    rfl

/-- There is room for the brackets of the smaller array. -/
theorem Cursor.not_oversized_manyDimensions {m : Cursor}
    (h : m ∈ [5, 4].map manyDimensions) : ¬m.Oversized := by
  have hcases : m = manyDimensions 5 ∨ m = manyDimensions 4 := by simpa using h
  intro hsize
  rcases hcases with rfl | rfl
  · exact absurd hsize.2 (by decide)
  · exact absurd hsize.2 (by decide)

/-- The larger array is the first node on the way up that has no source text. -/
theorem Cursor.overflows_manyDimensions : Tree.manyDimensions.root.Overflows := by
  have hsize : (manyDimensions 7).Oversized := ⟨by decide, by decide⟩
  -- The nodes before the large array creation are the small one and its statement.
  have hbefore : ∀ b ∈ [5, 4].map manyDimensions, ∀ e, ¬b.FailsFor e := by
    intro b hb e hfails
    cases e with
    | panicked p => exact not_oversized_manyDimensions hb hfails.2
    | reported e =>
      have hcases : b = manyDimensions 5 ∨ b = manyDimensions 4 := by simpa using hb
      obtain ⟨role, hlacks, -⟩ := hfails
      rcases hcases with rfl | rfl
      · cases hlacks
      · cases hlacks
  exact ⟨manyDimensions 7, ⟨rfl, hsize⟩, [5, 4].map manyDimensions,
    [6, 3, 2, 1, 0].map manyDimensions, postorder_manyDimensions.2, hbefore⟩

/-- So the source code panics, whatever the layout. -/
theorem Exporter.code_panics_manyDimensions (layout : Layout) :
    (code layout).render Tree.manyDimensions.root = .error .capacity :=
  code_render_eq_error_iff.2 ((Printer.print_panics_iff Tree.built_manyDimensions.linked layout
    .capacity).2 ⟨rfl, .inr Cursor.overflows_manyDimensions⟩)

namespace Pipeline

/-- The smaller of the arrays is no trouble: what is below its statement is
    written in all four forms. -/
theorem run_breaks_off_iff_manyDimensions :
    Tree.manyDimensions.Built ∧ ({} : Layout).indentWidth ≤ maxBytes ∧
      ∃ report s', (run Shelf.sink true (Exporter.standard {} false .json)
          (.manyDimensions 4)).run {} = (.ok report, s') ∧
        report.outcomes.map (·.artifact) = ["code.txt", "ast.dot", "ast.json", "stats.txt"] := by
  have hwidth : ({} : Layout).indentWidth ≤ maxBytes := by decide
  have hgoes : ¬(Cursor.manyDimensions 4).Overflows := by
    rintro ⟨m, hfirst⟩
    have hmem := hfirst.mem
    rw [Cursor.postorder_manyDimensions.1] at hmem
    exact Cursor.not_oversized_manyDimensions hmem hfirst.failed.2
  obtain ⟨-, -, -, hreport⟩ := run_breaks_off_iff (n := .manyDimensions 4)
    Tree.built_manyDimensions hwidth false .json Shelf.sink {}
  obtain ⟨report, s', hartifacts, hrun⟩ := hreport hgoes
  exact ⟨Tree.built_manyDimensions, hwidth, report, s', hrun true, hartifacts⟩

/-- The larger one leaves no room for its brackets, and takes the run over the
    whole tree down. -/
theorem dimensions_take_down_run :
    Tree.manyDimensions.Built ∧ ({} : Layout).indentWidth ≤ maxBytes ∧
      (Cursor.manyDimensions 7).kind = .expression .arrayCreation ∧
      maxBytes < (Text.copies ((Cursor.manyDimensions 7).attributes.count Key.extraDims)
        "[]").utf8ByteSize ∧
      (run Shelf.sink false (Exporter.standard {} false .json) Tree.manyDimensions.root).run {} =
        (.error .capacity, {}) := by
  have hcount : Nat.pow 2 62 ≤ (Cursor.manyDimensions 7).attributes.count Key.extraDims := by decide
  refine ⟨Tree.built_manyDimensions, by decide, by decide, ?_, ?_⟩
  · rw [Text.utf8ByteSize_copies, ← Nat.not_le, Template.brackets_room_iff]
    exact Nat.not_lt.2 hcount
  · exact (run_of_first_panic _ (Exporter.code_panics_manyDimensions {}) _ _).1

end Pipeline

end JavaTree
