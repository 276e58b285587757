import JavaTree.Proofs.Pipeline.Depot
import JavaTree.Proofs.Tree.Links
import Mathlib.Logic.Relation

/-! # Exporters in any order

    Exporters that run side by side take their steps in some order: each one
    renders its text and then writes it in one piece, or panics instead.  The
    order does not matter.  Whatever it is, what becomes of each exporter and
    what is kept in the end are the same, and unless there is a panic they are
    those of the run that takes one exporter after the other.

    Two facts carry this.  A rendered text is a function of the tree, and a
    depot keeps every artifact under a key of its own.  `Depot.Consistent`
    says what holds at every moment of a run; once all exporters have come to
    their ends, the run is settled.

    The main statement is `Pipeline.every_order_as_in_turn`. -/

namespace JavaTree

namespace Pipeline

/-! ## Section 1: Moments of a run -/

/-- How far an exporter has come. -/
inductive Progress where
  | waiting
  | rendered (text : Except ExportError String)
  /-- With an outcome, or with a panic. -/
  | ended (answer : Except Panic Outcome)

/-- A moment of a run. -/
structure Moment (σ : Type) where
  /-- How far each exporter has come, in the order of the exporters. -/
  progress : List Progress
  /-- The state of the sink. -/
  state : σ

/-- Before the first step. -/
def Moment.start {σ : Type} (exporters : List Exporter) (s : σ) : Moment σ :=
  ⟨exporters.map fun _ => .waiting, s⟩

/-- All exporters have come to their ends, with the given answers. -/
def Moment.EndsWith {σ : Type} (m : Moment σ) (answers : List (Except Panic Outcome)) : Prop :=
  m.progress = answers.map .ended

/-- Any one of the exporters takes its next step.  An exporter that waits
    renders its text, or panics and has come to its end.  One that has rendered
    writes the text in one piece and has come to its end, too; so each one
    renders once and writes at most once. -/
inductive Step {σ : Type} (sink : Sink (StateM σ)) (exporters : List Exporter) (root : Cursor) :
    Moment σ → Moment σ → Prop where
  | render {m : Moment σ} {i : Nat} {e : Exporter} {text : Except ExportError String}
      (he : exporters[i]? = some e) (hi : m.progress[i]? = some .waiting)
      (htext : e.render root = .ok text) :
      Step sink exporters root m ⟨m.progress.set i (.rendered text), m.state⟩
  | panic {m : Moment σ} {i : Nat} {e : Exporter} {p : Panic} (he : exporters[i]? = some e)
      (hi : m.progress[i]? = some .waiting) (hp : e.render root = .error p) :
      Step sink exporters root m ⟨m.progress.set i (.ended (.error p)), m.state⟩
  | write {m : Moment σ} {i : Nat} {e : Exporter} {text : Except ExportError String}
      {outcome : Outcome} {s : σ} (he : exporters[i]? = some e)
      (hi : m.progress[i]? = some (.rendered text))
      (hs : (deliver sink e.artifact text).run m.state = (outcome, s)) :
      Step sink exporters root m ⟨m.progress.set i (.ended (.ok outcome)), s⟩

/-- Steps of exporters, one after the other, lead from one moment to another. -/
def Interleaves {σ : Type} (sink : Sink (StateM σ)) (exporters : List Exporter) (root : Cursor) :
    Moment σ → Moment σ → Prop :=
  Relation.ReflTransGen (Step sink exporters root)

section Runs

variable {σ : Type} {sink : Sink (StateM σ)} {exporters : List Exporter} {root : Cursor}

/-- An exporter in the middle that has rendered writes its text. -/
theorem interleaves_write {e : Exporter} {before after : List Progress} {s s' : σ}
    {text : Except ExportError String} {outcome : Outcome}
    (he : exporters[before.length]? = some e)
    (hs : (deliver sink e.artifact text).run s = (outcome, s')) :
    Interleaves sink exporters root ⟨before ++ .rendered text :: after, s⟩
      ⟨before ++ .ended (.ok outcome) :: after, s'⟩ := by
  have hstep : Step sink exporters root ⟨before ++ .rendered text :: after, s⟩ _ :=
    .write he (by simp) hs
  refine Relation.ReflTransGen.single ?_
  simpa using hstep

/-- An exporter in the middle that waits has its share. -/
theorem interleaves_exportOne {e : Exporter} {before after : List Progress} {s s' : σ}
    {answer : Except Panic Outcome} (he : exporters[before.length]? = some e)
    (hs : (exportOne sink root e).run s = (answer, s')) :
    Interleaves sink exporters root ⟨before ++ .waiting :: after, s⟩
      ⟨before ++ .ended answer :: after, s'⟩ := by
  have hwaiting : (before ++ Progress.waiting :: after)[before.length]? = some .waiting := by simp
  cases hrender : e.render root with
  | error p =>
    rw [exportOne_of_error hrender] at hs
    obtain ⟨rfl, rfl⟩ := Prod.mk.inj hs
    have hstep : Step sink exporters root ⟨before ++ .waiting :: after, s⟩ _ :=
      .panic he hwaiting hrender
    refine Relation.ReflTransGen.single ?_
    simpa using hstep
  | ok text =>
    rw [exportOne_of_ok hrender] at hs
    obtain ⟨rfl, rfl⟩ := Prod.mk.inj hs
    have hstep : Step sink exporters root ⟨before ++ .waiting :: after, s⟩
        ⟨before ++ .rendered text :: after, s⟩ := by
      have hset : (before ++ Progress.waiting :: after).set before.length (.rendered text) =
          before ++ .rendered text :: after := by simp
      rw [← hset]
      exact .render he hwaiting hrender
    exact Relation.ReflTransGen.head hstep (interleaves_write he rfl)

variable (sink root)

/-- Taking one exporter after the other is one of the orders. -/
theorem interleaves_mapM (before rest : List Exporter) (answers : List (Except Panic Outcome))
    (hlength : answers.length = before.length) (s : σ) :
    ∃ more s', (rest.mapM (exportOne sink root)).run s = (more, s') ∧
      Interleaves sink (before ++ rest) root
        ⟨answers.map .ended ++ rest.map fun _ => .waiting, s⟩
        ⟨(answers ++ more).map .ended, s'⟩ := by
  induction rest generalizing before answers s with
  | nil =>
    refine ⟨[], s, rfl, ?_⟩
    rw [List.map_nil, List.append_nil, List.append_nil, List.append_nil]
    exact Relation.ReflTransGen.refl
  | cons e rest ih =>
    obtain ⟨a, s₁, hone⟩ : ∃ a s₁, (exportOne sink root e).run s = (a, s₁) := ⟨_, _, rfl⟩
    have hlength' : (answers ++ [a]).length = (before ++ [e]).length := by
      simp [hlength]
    obtain ⟨more, s', hmore, hrest⟩ := ih (before ++ [e]) (answers ++ [a]) hlength' s₁
    have he : (before ++ e :: rest)[(answers.map Progress.ended).length]? = some e := by
      simp [hlength]
    refine ⟨a :: more, s', ?_, ?_⟩
    · rw [run_mapM_cons, hone, hmore]
    · refine Relation.ReflTransGen.trans (interleaves_exportOne he hone) ?_
      simpa [Interleaves] using hrest

/-- The exporters from some place on can be brought to their ends. -/
theorem exists_interleaves_ended (before : List (Except Panic Outcome)) (rest : List Progress)
    (s : σ) (hlength : before.length + rest.length = exporters.length) :
    ∃ (answers : List (Except Panic Outcome)) (s' : σ), Interleaves sink exporters root
      ⟨before.map .ended ++ rest, s⟩ ⟨answers.map .ended, s'⟩ := by
  induction rest generalizing before s with
  | nil =>
    refine ⟨before, s, ?_⟩
    rw [List.append_nil]
    exact Relation.ReflTransGen.refl
  | cons p rest ih =>
    rw [List.length_cons] at hlength
    have hlt : before.length < exporters.length := by omega
    have he : exporters[(before.map Progress.ended).length]? = some exporters[before.length] := by
      rw [List.length_map, List.getElem?_eq_getElem hlt]
    -- Once the next exporter has come to its end, the others follow.
    have hgoOn : ∀ (a : Except Panic Outcome) (s₁ : σ),
        ∃ (answers : List (Except Panic Outcome)) (s' : σ),
        Interleaves sink exporters root
          ⟨before.map .ended ++ .ended a :: rest, s₁⟩ ⟨answers.map .ended, s'⟩ := by
      intro a s₁
      have hnext := ih (before ++ [a]) s₁ (by rw [List.length_append, List.length_singleton]; omega)
      simpa using hnext
    cases p with
    | waiting =>
      obtain ⟨answers, s', hsteps⟩ := hgoOn _ _
      exact ⟨answers, s', Relation.ReflTransGen.trans (interleaves_exportOne he rfl) hsteps⟩
    | rendered text =>
      obtain ⟨answers, s', hsteps⟩ := hgoOn _ _
      exact ⟨answers, s', Relation.ReflTransGen.trans (interleaves_write he rfl) hsteps⟩
    | ended a => exact hgoOn a s

end Runs

/-! ## Section 2: What holds at every moment -/

namespace Depot

variable {σ κ β : Type} {depot : Depot σ κ β} {root : Cursor} {exporters : List Exporter}

/-- What holds at every moment of a run that starts in the state `s`. -/
structure Consistent (depot : Depot σ κ β) (root : Cursor) (exporters : List Exporter) (s : σ)
    (m : Moment σ) : Prop where
  /-- Every exporter is accounted for. -/
  length : m.progress.length = exporters.length
  /-- The sink can be used. -/
  valid : depot.valid m.state
  /-- A rendered text is the exporter's own. -/
  rendered : ∀ {i : Nat} {e : Exporter} {text : Except ExportError String},
    exporters[i]? = some e → m.progress[i]? = some (.rendered text) → e.render root = .ok text
  /-- What an exporter ends with is its own verdict. -/
  ended : ∀ {i : Nat} {e : Exporter} {a : Except Panic Outcome},
    exporters[i]? = some e → m.progress[i]? = some (.ended a) → a = depot.verdict root e
  /-- What an exporter wrote is kept. -/
  kept : ∀ {i : Nat} {e : Exporter} {a : Except Panic Outcome},
    exporters[i]? = some e → m.progress[i]? = some (.ended a) →
      depot.Writes root e → ∀ text, e.render root = .ok (.ok text) →
        depot.look m.state (depot.key e.artifact) = some (depot.content text)
  /-- Where no exporter wrote, nothing has changed. -/
  untouched : ∀ k, (∀ (i : Nat) (e : Exporter) (a : Except Panic Outcome),
      exporters[i]? = some e → m.progress[i]? = some (.ended a) →
        depot.Writes root e → depot.key e.artifact ≠ k) →
    depot.look m.state k = depot.look s k

theorem consistent_start {s : σ} (hs : depot.valid s) :
    depot.Consistent root exporters s (.start exporters s) := by
  have hwaiting : ∀ {i : Nat} {p : Progress},
      (Moment.start exporters s).progress[i]? = some p → p = .waiting := by
    intro i p h
    rw [Moment.start, List.getElem?_map, Option.map_eq_some_iff] at h
    obtain ⟨_, -, rfl⟩ := h
    rfl
  exact {
    length := by rw [Moment.start, List.length_map]
    valid := hs
    rendered := fun _ h => by cases hwaiting h
    ended := fun _ h => by cases hwaiting h
    kept := fun _ h => by cases hwaiting h
    untouched := fun _ _ => rfl }

/-- A changed entry of a list is the new one, or it is another place and the
    entry is as before. -/
theorem getElem?_set_cases {ps : List Progress} {i j : Nat} {p q : Progress}
    (h : (ps.set i p)[j]? = some q) : (j = i ∧ q = p) ∨ (j ≠ i ∧ ps[j]? = some q) := by
  by_cases hj : i = j
  · subst hj
    by_cases hlt : i < ps.length
    · rw [List.getElem?_set_self hlt] at h
      exact .inl ⟨rfl, (Option.some.inj h).symm⟩
    · rw [List.getElem?_eq_none (by rw [List.length_set]; omega)] at h
      exact absurd h (by simp)
  · rw [List.getElem?_set_ne hj] at h
    exact .inr ⟨fun heq => hj heq.symm, h⟩

theorem Consistent.render {s : σ} {m : Moment σ} (h : depot.Consistent root exporters s m)
    {i : Nat} {e : Exporter} {text : Except ExportError String} (he : exporters[i]? = some e)
    (hi : m.progress[i]? = some .waiting) (htext : e.render root = .ok text) :
    depot.Consistent root exporters s ⟨m.progress.set i (.rendered text), m.state⟩ where
  length := by
    rw [List.length_set]
    exact h.length
  valid := h.valid
  rendered := by
    intro j f text' hf hj
    rcases getElem?_set_cases hj with ⟨rfl, heq⟩ | ⟨-, hj⟩
    · rw [he] at hf
      obtain rfl := Option.some.inj hf
      rw [Progress.rendered.inj heq]
      exact htext
    · exact h.rendered hf hj
  ended := by
    intro j f a hf hj
    rcases getElem?_set_cases hj with ⟨-, heq⟩ | ⟨-, hj⟩
    · cases heq
    · exact h.ended hf hj
  kept := by
    intro j f a hf hj
    rcases getElem?_set_cases hj with ⟨-, heq⟩ | ⟨-, hj⟩
    · cases heq
    · exact h.kept hf hj
  untouched := by
    intro k hk
    apply h.untouched k
    intro j f a hf hj
    apply hk j f a hf
    have hne : i ≠ j := by
      rintro rfl
      rw [hi] at hj
      cases hj
    rw [List.getElem?_set_ne hne]
    exact hj

/-- Different places hold exporters with different keys. -/
theorem key_ne (hserves : ∀ e ∈ exporters, depot.serves e.artifact)
    (hnames : (exporters.map (·.artifact)).Nodup) {i j : Nat} {e f : Exporter}
    (he : exporters[i]? = some e) (hf : exporters[j]? = some f) (hne : i ≠ j) :
    depot.key e.artifact ≠ depot.key f.artifact := by
  intro hkey
  have hname : e.artifact = f.artifact :=
    depot.key_injective (hserves e (List.mem_of_getElem? he)) (hserves f (List.mem_of_getElem? hf))
      hkey
  have hlt : i < (exporters.map (·.artifact)).length := by
    rw [List.length_map]
    exact (List.getElem?_eq_some_iff.1 he).1
  apply hne
  apply (List.getElem?_inj hlt hnames).1
  rw [List.getElem?_map, List.getElem?_map, he, hf, Option.map_some, Option.map_some, hname]

/-- An exporter comes to its end, with its own effect. -/
theorem Consistent.finish (hserves : ∀ e ∈ exporters, depot.serves e.artifact)
    (hnames : (exporters.map (·.artifact)).Nodup) {s s' : σ} {m : Moment σ}
    (h : depot.Consistent root exporters s m) {i : Nat} {e : Exporter} {p : Progress}
    (he : exporters[i]? = some e) (hi : m.progress[i]? = some p) (hp : ∀ a, p ≠ .ended a)
    (heffect : depot.Effect root e m.state s') :
    depot.Consistent root exporters s
      ⟨m.progress.set i (.ended (depot.verdict root e)), s'⟩ := by
  have hset : (m.progress.set i (.ended (depot.verdict root e)))[i]? =
      some (.ended (depot.verdict root e)) :=
    List.getElem?_set_self (List.getElem?_eq_some_iff.1 hi).1
  exact {
    length := by
      rw [List.length_set]
      exact h.length
    valid := heffect.valid
    rendered := by
      intro j f text hf hj
      rcases getElem?_set_cases hj with ⟨-, heq⟩ | ⟨-, hj⟩
      · cases heq
      · exact h.rendered hf hj
    ended := by
      intro j f a hf hj
      rcases getElem?_set_cases hj with ⟨rfl, heq⟩ | ⟨-, hj⟩
      · rw [he] at hf
        obtain rfl := Option.some.inj hf
        exact Progress.ended.inj heq
      · exact h.ended hf hj
    kept := by
      intro j f a hf hj hwrites text htext
      rcases getElem?_set_cases hj with ⟨rfl, -⟩ | ⟨hne, hj⟩
      · rw [he] at hf
        obtain rfl := Option.some.inj hf
        exact heffect.kept hwrites text htext
      · -- What another exporter wrote before is under another key.
        rw [heffect.untouched _ fun _ => key_ne hserves hnames he hf hne.symm]
        exact h.kept hf hj hwrites text htext
    untouched := by
      intro k hk
      rw [heffect.untouched k (hk i e _ he hset)]
      apply h.untouched k
      intro j f a hf hj
      apply hk j f a hf
      have hne : i ≠ j := by
        rintro rfl
        rw [hi] at hj
        exact hp a (Option.some.inj hj)
      rw [List.getElem?_set_ne hne]
      exact hj }

theorem Consistent.panic (hserves : ∀ e ∈ exporters, depot.serves e.artifact)
    (hnames : (exporters.map (·.artifact)).Nodup) {s : σ} {m : Moment σ}
    (h : depot.Consistent root exporters s m) {i : Nat} {e : Exporter} {p : Panic}
    (he : exporters[i]? = some e) (hi : m.progress[i]? = some .waiting)
    (hp : e.render root = .error p) :
    depot.Consistent root exporters s ⟨m.progress.set i (.ended (.error p)), m.state⟩ := by
  have hnot : ¬depot.Writes root e := fun hwrites => hwrites.not_panicsAt ⟨p, hp⟩
  have hverdict : depot.verdict root e = .error p := verdict_eq_error_iff.2 hp
  rw [← hverdict]
  exact h.finish hserves hnames he hi nofun (.of_not_writes h.valid hnot)

theorem Consistent.write (hserves : ∀ e ∈ exporters, depot.serves e.artifact)
    (hnames : (exporters.map (·.artifact)).Nodup) {s s' : σ} {m : Moment σ}
    (h : depot.Consistent root exporters s m) {i : Nat} {e : Exporter}
    {text : Except ExportError String} {outcome : Outcome} (he : exporters[i]? = some e)
    (hi : m.progress[i]? = some (.rendered text))
    (hs : (deliver depot.sink e.artifact text).run m.state = (outcome, s')) :
    depot.Consistent root exporters s ⟨m.progress.set i (.ended (.ok outcome)), s'⟩ := by
  have htext := h.rendered he hi
  obtain ⟨s₁, hrun, heffect⟩ :=
    run_deliver root h.valid (hserves e (List.mem_of_getElem? he)) htext
  obtain ⟨rfl, rfl⟩ := Prod.mk.inj (hs.symm.trans hrun)
  rw [← verdict_of_ok htext]
  exact h.finish hserves hnames he hi nofun heffect

/-- Every moment that steps of exporters lead to is consistent. -/
theorem Consistent.of_interleaves (hserves : ∀ e ∈ exporters, depot.serves e.artifact)
    (hnames : (exporters.map (·.artifact)).Nodup) {s : σ} (hs : depot.valid s) {m : Moment σ}
    (hm : Interleaves depot.sink exporters root (.start exporters s) m) :
    depot.Consistent root exporters s m := by
  induction hm with
  | refl => exact consistent_start hs
  | tail _ hstep ih =>
    cases hstep with
    | render he hi htext => exact ih.render he hi htext
    | panic he hi hp => exact ih.panic hserves hnames he hi hp
    | write he hi hs => exact ih.write hserves hnames he hi hs

/-! ## Section 3: What holds in the end -/

theorem Consistent.answers_eq {s : σ} {m : Moment σ} (h : depot.Consistent root exporters s m)
    {answers : List (Except Panic Outcome)} (hend : m.EndsWith answers) :
    answers = exporters.map (depot.verdict root) := by
  have hlength : answers.length = exporters.length := by
    rw [← h.length, hend, List.length_map]
  apply List.ext_getElem?
  intro i
  rw [List.getElem?_map]
  by_cases hi : i < exporters.length
  · have he : exporters[i]? = some exporters[i] := List.getElem?_eq_getElem hi
    have ha : answers[i]? = some answers[i] := List.getElem?_eq_getElem (hlength ▸ hi)
    have hp : m.progress[i]? = some (.ended answers[i]) := by
      rw [hend, List.getElem?_map, ha, Option.map_some]
    rw [he, ha, Option.map_some, h.ended he hp]
  · rw [List.getElem?_eq_none (by omega), List.getElem?_eq_none (by omega), Option.map_none]

theorem Consistent.settled {s : σ} {m : Moment σ} (h : depot.Consistent root exporters s m)
    {answers : List (Except Panic Outcome)} (hend : m.EndsWith answers) :
    depot.Settled root exporters s m.state := by
  have hlength : answers.length = exporters.length := by
    rw [← h.length, hend, List.length_map]
  have hended : ∀ {i : Nat} {e : Exporter}, exporters[i]? = some e →
      ∃ a, m.progress[i]? = some (.ended a) := by
    intro i e he
    have hi : i < answers.length := by
      rw [hlength]
      exact (List.getElem?_eq_some_iff.1 he).1
    refine ⟨answers[i], ?_⟩
    rw [hend, List.getElem?_map, List.getElem?_eq_getElem hi, Option.map_some]
  constructor
  · intro e he
    obtain ⟨i, hi⟩ := List.mem_iff_getElem?.1 he
    obtain ⟨a, ha⟩ := hended hi
    exact h.kept hi ha
  · intro k hk
    apply h.untouched k
    intro i e a he _
    exact hk e (List.mem_of_getElem? he)

/-- Exporters that have their shares one after the other end with their
    verdicts. -/
theorem run_mapM_exportOne (root : Cursor) (hserves : ∀ e ∈ exporters, depot.serves e.artifact)
    (hnames : (exporters.map (·.artifact)).Nodup) {s : σ} (hs : depot.valid s) :
    ∃ s', (exporters.mapM (exportOne depot.sink root)).run s =
        (exporters.map (depot.verdict root), s') ∧ depot.valid s' ∧
      depot.Settled root exporters s s' := by
  obtain ⟨answers, s', hrun, hsteps⟩ := interleaves_mapM depot.sink root [] exporters [] rfl s
  have hconsistent := Consistent.of_interleaves hserves hnames hs hsteps
  have hend : Moment.EndsWith ⟨answers.map .ended, s'⟩ answers := rfl
  obtain rfl := hconsistent.answers_eq hend
  exact ⟨s', hrun, hconsistent.valid, hconsistent.settled hend⟩

/-- Where no exporter panics, all verdicts are outcomes. -/
theorem exists_outcomes_of_calm (depot : Depot σ κ β) (h : ∀ e ∈ exporters, ¬e.PanicsAt root) :
    ∃ outcomes : List Outcome, outcomes.map .ok = exporters.map (depot.verdict root) := by
  induction exporters with
  | nil => exact ⟨[], rfl⟩
  | cons e rest ih =>
    obtain ⟨text, htext⟩ := Exporter.exists_of_not_panicsAt (h e List.mem_cons_self)
    obtain ⟨outcomes, houtcomes⟩ := ih fun f hf => h f (List.mem_cons_of_mem e hf)
    refine ⟨depot.outcome e.artifact text :: outcomes, ?_⟩
    rw [List.map_cons, List.map_cons, houtcomes, verdict_of_ok htext]

/-- Where no exporter panics, a run reports the verdict on every exporter. -/
theorem exists_run (root : Cursor) (hserves : ∀ e ∈ exporters, depot.serves e.artifact)
    (hnames : (exporters.map (·.artifact)).Nodup) {s : σ} (hs : depot.valid s)
    (hcalm : ∀ e ∈ exporters, ¬e.PanicsAt root) :
    ∃ outcomes s', (∀ parallel, (run depot.sink parallel exporters root).run s =
        (.ok ⟨outcomes⟩, s')) ∧ outcomes.map .ok = exporters.map (depot.verdict root) ∧
      depot.valid s' ∧ depot.Settled root exporters s s' := by
  obtain ⟨s', hmapM, hvalid, hsettled⟩ := run_mapM_exportOne root hserves hnames hs
  obtain ⟨outcomes, houtcomes⟩ := depot.exists_outcomes_of_calm hcalm
  refine ⟨outcomes, s', ?_, houtcomes, hvalid, hsettled⟩
  intro parallel
  rw [run_eq hcalm, run_parallel_eq hmapM, ← houtcomes, mapM_id_map_ok]
  rfl

/-- A panic leaves no report.  In parallel the others have had their shares,
    and in turn those in front have. -/
theorem exists_run_of_panic (depot : Depot σ κ β) (root : Cursor) (before : List Exporter)
    {e : Exporter} {p : Panic} (after : List Exporter)
    (hserves : ∀ f ∈ before ++ e :: after, depot.serves f.artifact)
    (hnames : ((before ++ e :: after).map (·.artifact)).Nodup) {s : σ} (hs : depot.valid s)
    (hcalm : ∀ f ∈ before, ¬f.PanicsAt root) (hp : e.render root = .error p) :
    ∃ s₁ s₂, (run depot.sink true (before ++ e :: after) root).run s = (.error p, s₁) ∧
      depot.Settled root (before ++ e :: after) s s₁ ∧
      (run depot.sink false (before ++ e :: after) root).run s = (.error p, s₂) ∧
      depot.Settled root before s s₂ := by
  obtain ⟨s₁, hmapM, -, hsettled⟩ := run_mapM_exportOne root hserves hnames hs
  have hserves' : ∀ f ∈ before, depot.serves f.artifact :=
    fun f hf => hserves f (List.mem_append_left _ hf)
  have hnames' : (before.map (·.artifact)).Nodup :=
    hnames.sublist ((List.sublist_append_left before _).map _)
  obtain ⟨s₂, hmapM', -, hsettled'⟩ := run_mapM_exportOne root hserves' hnames' hs
  refine ⟨s₁, s₂, ?_, hsettled, ?_, hsettled'⟩
  · obtain ⟨outcomes, houtcomes⟩ := depot.exists_outcomes_of_calm hcalm
    rw [run_parallel_eq hmapM, List.map_append, List.map_cons, ← houtcomes,
      verdict_eq_error_iff.2 hp, mapM_id_of_error]
    rfl
  · rw [run, if_neg Bool.false_ne_true, runInTurn_of_panic hcalm hp, runInTurn_eq hcalm,
      runTogether_eq, run_bind_eq, run_bind_eq, run_bind_eq, hmapM']
    rfl

end Depot

end Pipeline

/-! ## Section 4: Any order is as good as any other -/

/-- The standard artifacts have different names. -/
theorem Exporter.nodup_standard (layout : Layout) (styled : Bool) (format : Format) :
    ((standard layout styled format).map (·.artifact)).Nodup := by
  show ["code.txt", "ast.dot", "ast." ++ format.extension, "stats.txt"].Nodup
  cases format <;> decide

namespace Pipeline

/-- Exporters with different names may take their steps in any order, into any
    sink that is a map and refuses some names.  At every moment, what the
    exporters wrote so far is kept and all else is as it was
    (`Depot.Consistent`).  Whatever the order, the run can be brought to its
    end, and then every exporter has ended in the same way and the same is
    kept.

    Where no exporter panics there is a report, in turn and in parallel, and it
    keeps failures apart (`Depot.Isolates`).  An exporter that fails might as
    well not have been there.

    A panic leaves no report.  In parallel the others still write what they
    have; in turn those behind the first panic write nothing.  Of the standard
    exporters only the source code panics, for want of room. -/
theorem every_order_as_in_turn (t : Tree) :
    (∀ layout styled format,
      ((Exporter.standard layout styled format).map (·.artifact)).Nodup ∧
      (t.Built → ((∃ e ∈ Exporter.standard layout styled format, e.PanicsAt t.root) ↔
        maxBytes < layout.indentWidth ∨ t.root.Overflows))) ∧
    ∀ {σ κ β : Type} (depot : Depot σ κ β) (exporters : List Exporter) (s : σ),
      depot.valid s → (∀ e ∈ exporters, depot.serves e.artifact) →
      (exporters.map (·.artifact)).Nodup →
      ∃ s',
        (∀ m, Interleaves depot.sink exporters t.root (.start exporters s) m →
          depot.Consistent t.root exporters s m ∧
          (∃ m' answers, Interleaves depot.sink exporters t.root m m' ∧ m'.EndsWith answers) ∧
          ∀ answers, m.EndsWith answers →
            answers = exporters.map (depot.verdict t.root) ∧
              ∀ k, depot.look m.state k = depot.look s' k) ∧
        ((∀ e ∈ exporters, ¬e.PanicsAt t.root) →
          ∃ report,
            (∀ parallel, (run depot.sink parallel exporters t.root).run s = (.ok report, s')) ∧
            depot.Isolates t.root exporters s report s' ∧
            ∀ before e after, exporters = before ++ e :: after → ¬depot.Writes t.root e →
              ∃ report' s'',
                (∀ parallel, (run depot.sink parallel (before ++ after) t.root).run s =
                  (.ok report', s'')) ∧
                report'.outcomes.map .ok =
                  before.map (depot.verdict t.root) ++ after.map (depot.verdict t.root) ∧
                ∀ k, depot.look s'' k = depot.look s' k) ∧
        ∀ before e after p, exporters = before ++ e :: after →
          (∀ f ∈ before, ¬f.PanicsAt t.root) → e.render t.root = .error p →
            (run depot.sink true exporters t.root).run s = (.error p, s') ∧
            ∃ s'', (run depot.sink false exporters t.root).run s = (.error p, s'') ∧
              depot.Settled t.root before s s'' := by
  refine ⟨?_, ?_⟩
  · intro layout styled format
    exact ⟨Exporter.nodup_standard layout styled format,
      fun built => Exporter.standard_panics_iff built layout styled format⟩
  intro σ κ β depot exporters s hs hserves hnames
  obtain ⟨s', hmapM, -, hsettled⟩ := Depot.run_mapM_exportOne t.root hserves hnames hs
  -- What a run in parallel leaves behind is this state, with or without a panic.
  have hstate : ∀ {answer s₁}, (run depot.sink true exporters t.root).run s = (answer, s₁) →
      s₁ = s' := by
    intro answer s₁ hrun
    rw [run_parallel_eq hmapM] at hrun
    exact (Prod.mk.inj hrun).2.symm
  refine ⟨s', ?_, ?_, ?_⟩
  · intro m hm
    have hconsistent := Depot.Consistent.of_interleaves hserves hnames hs hm
    refine ⟨hconsistent, ?_, ?_⟩
    · obtain ⟨answers, s₁, hend⟩ := exists_interleaves_ended depot.sink t.root []
        m.progress m.state (by simpa using hconsistent.length)
      exact ⟨_, answers, hend, rfl⟩
    · intro answers hend
      refine ⟨hconsistent.answers_eq hend, ?_⟩
      exact (hconsistent.settled hend).look_eq hsettled fun _ _ => Iff.rfl
  · intro hcalm
    obtain ⟨outcomes, s₁, hrun, houtcomes, -, -⟩ :=
      Depot.exists_run t.root hserves hnames hs hcalm
    obtain rfl := hstate (hrun true)
    refine ⟨⟨outcomes⟩, hrun, hsettled.isolates hserves hnames houtcomes, ?_⟩
    rintro before e after rfl hnot
    have hsub : (before ++ after).Sublist (before ++ e :: after) :=
      (List.sublist_cons_self e after).append_left before
    obtain ⟨outcomes', s'', hrun', houtcomes', -, hsettled'⟩ :=
      Depot.exists_run t.root (fun f hf => hserves f (hsub.subset hf))
        (hnames.sublist (hsub.map _)) hs fun f hf => hcalm f (hsub.subset hf)
    refine ⟨⟨outcomes'⟩, s'', hrun', by rw [houtcomes', List.map_append], ?_⟩
    apply hsettled'.look_eq hsettled
    intro f hf
    have hne : f ≠ e := by
      rintro rfl
      exact hnot hf
    simp [hne]
  · rintro before e after p rfl hcalm hp
    obtain ⟨s₁, s₂, htogether, -, hturn, hsettled'⟩ :=
      depot.exists_run_of_panic t.root before after hserves hnames hs hcalm hp
    obtain rfl := hstate htogether
    exact ⟨htogether, s₂, hturn, hsettled'⟩

/-- A shelf refuses the graph, of which it has an old one.  That one stays, and
    the other artifacts come out the same in every order. -/
theorem every_order_as_in_turn_refusedGraph :
    let shelf : Shelf := { files := [("ast.dot", "old")], refused := ["ast.dot"] }
    let exporters := Exporter.standard {} true .json
    let root := Tree.twoClasses.root
    (exporters.map (·.artifact)).Nodup ∧
      ∃ report s', (run Shelf.sink true exporters root).run shelf = (.ok report, s') ∧
        report.exitCode = 2 ∧ s'.get? "ast.dot" = some "old" ∧
        ∀ m, Interleaves Shelf.sink exporters root (.start exporters shelf) m →
          ∀ answers, m.EndsWith answers →
            answers = report.outcomes.map .ok ∧ ∀ name, m.state.get? name = s'.get? name := by
  intro shelf exporters root
  obtain ⟨hstandard, hruns⟩ := every_order_as_in_turn Tree.twoClasses
  obtain ⟨hnames, hpanics⟩ := hstandard {} true .json
  have hcalm : ∀ e ∈ exporters, ¬e.PanicsAt root := by
    intro e he hpanic
    rcases (hpanics Tree.built_twoClasses).1 ⟨e, he, hpanic⟩ with hwide | hover
    · exact absurd hwide (by decide)
    · -- There is no array creation among its four nodes.
      obtain ⟨⟨t, i, hi⟩, hm, hkind, -⟩ := hover.exists_oversized
      obtain rfl : t = Tree.twoClasses := hm.tree_eq
      have hkinds : ∀ i : Fin 4, (⟨Tree.twoClasses, i, i.isLt⟩ : Cursor).kind ≠
          .expression .arrayCreation := by decide
      exact hkinds ⟨i, hi⟩ hkind
  obtain ⟨s', horders, hreport, -⟩ :=
    hruns (Shelf.depot ["ast.dot"]) exporters shelf rfl (fun _ _ => trivial) hnames
  obtain ⟨report, hrun, hisolates, -⟩ := hreport hcalm
  have hmem : Exporter.graph true ∈ exporters := by
    simp [exporters, Exporter.standard]
  have hfails : ¬(Shelf.depot ["ast.dot"]).Writes root (.graph true) := by
    rintro ⟨-, h⟩
    cases h
  have hfailures : report.failures ≠ [] := by
    intro hnil
    apply hfails
    rw [← hisolates.written_iff _ hmem, hisolates.complete.1 hnil]
    exact List.mem_map_of_mem hmem
  refine ⟨hnames, report, s', hrun true, hisolates.failure hfailures,
    hisolates.failed _ hmem hfails, ?_⟩
  intro m hm answers hend
  rw [hisolates.outcomes]
  exact (horders m hm).2.2 answers hend

/-- An array of very many dimensions leaves no report.  In turn nothing is
    written, while in parallel the statistics are. -/
theorem dimensions_leave_no_report :
    let exporters := Exporter.standard {} false .json
    let root := Tree.manyDimensions.root
    Tree.manyDimensions.Built ∧ (exporters.map (·.artifact)).Nodup ∧
      (run Shelf.sink false exporters root).run {} = (.error .capacity, {}) ∧
      ∃ s', (run Shelf.sink true exporters root).run {} = (.error .capacity, s') ∧
        s'.get? "stats.txt" = some (Statistics.report root) := by
  intro exporters root
  have hnames := Exporter.nodup_standard {} false .json
  have hcode := Exporter.code_panics_manyDimensions {}
  obtain ⟨s₁, -, htogether, hsettled, -⟩ := (Shelf.depot []).exists_run_of_panic root []
    [.graph false, .tree .json, .statistics] (s := {}) (fun _ _ => trivial) hnames rfl nofun hcode
  have hmem : Exporter.statistics ∈ exporters := by
    simp [exporters, Exporter.standard]
  exact ⟨Tree.built_manyDimensions, hnames, (run_of_first_panic _ hcode _ _).1, s₁, htogether,
    hsettled.kept _ hmem ⟨⟨_, rfl⟩, rfl⟩ _ rfl⟩

end Pipeline

end JavaTree
