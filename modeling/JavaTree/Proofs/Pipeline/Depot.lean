import JavaTree.Proofs.Pipeline.Overflow
import Mathlib.Data.List.Nodup

/-! # Sinks that are maps

    A `Depot` is a sink that is a map: it refuses some names and keeps any
    other artifact under a key of its own.  What becomes of an exporter, be it
    an outcome or a panic, is then told by its own text and its own name
    (`Depot.verdict`), and the state in the end by the artifacts that were
    written (`Depot.Settled`).  A shelf is a depot, and so is a directory of a
    file tree.

    The main statement is `Depot.Settled.isolates`: the report of a settled
    run says exactly what has been kept. -/

namespace JavaTree

/-! ## Section 1: Complete reports -/

theorem Outcome.failure?_eq_none_iff {o : Outcome} : o.failure? = none ↔ o.isWritten = true := by
  obtain ⟨artifact, result⟩ := o
  cases result with
  | ok _ => simp [failure?, isWritten]
  | error e => simp [failure?, isWritten]

namespace Report

variable (r : Report)

theorem failures_eq_nil_iff : r.failures = [] ↔ ∀ o ∈ r.outcomes, o.isWritten = true := by
  rw [failures, List.filterMap_eq_nil_iff]
  constructor
  · intro h o ho
    exact Outcome.failure?_eq_none_iff.1 (h o ho)
  · intro h o ho
    exact Outcome.failure?_eq_none_iff.2 (h o ho)

theorem written_eq_iff :
    r.written = r.outcomes.map (·.artifact) ↔ ∀ o ∈ r.outcomes, o.isWritten = true := by
  constructor
  · intro h
    have hlength := congrArg List.length h
    rw [written, List.length_map, List.length_map] at hlength
    exact List.length_filter_eq_length_iff.1 hlength
  · intro h
    rw [written, List.filter_eq_self.2 h]

theorem exitCode_eq_zero_iff : r.exitCode = 0 ↔ r.failures = [] := by
  rw [exitCode, isComplete, ← List.isEmpty_iff]
  split <;> simp_all

theorem exitCode_of_failures_ne_nil (h : r.failures ≠ []) : r.exitCode = 2 := by
  have hcomplete : r.isComplete = false := by
    rw [isComplete, List.isEmpty_eq_false_iff]
    exact h
  rw [exitCode, hcomplete]
  rfl

end Report

namespace Pipeline

/-! ## Section 2: Sinks that are maps -/

/-- A sink that is a map.  Some names are refused, always the same ones, and
    then nothing changes.  A text with any other name is kept under the key of
    the name, and what is under the other keys stays.  `serves` are the names
    for which the sink is used, and `valid` are the states it is used in. -/
structure Depot (σ κ β : Type) where
  /-- The sink itself. -/
  sink : Sink (StateM σ)
  /-- The names that artifacts may have. -/
  serves : String → Prop
  /-- The states the sink may be in. -/
  valid : σ → Prop
  /-- What is kept under a key. -/
  look : σ → κ → Option β
  /-- The key of a name. -/
  key : String → κ
  /-- The form in which a text is kept. -/
  content : String → β
  /-- Why a name is refused, if it is. -/
  refusal? : String → Option StorageError
  /-- Different names have different keys. -/
  key_injective : ∀ {a b}, serves a → serves b → key a = key b → a = b
  /-- A refused write changes nothing. -/
  refuse : ∀ {s name e} (text : String), valid s → serves name → refusal? name = some e →
    (sink name text).run s = (.error e, s)
  /-- Any other write changes what is under its key, and only that. -/
  accept : ∀ {s name} (text : String), valid s → serves name → refusal? name = none →
    ∃ s', (sink name text).run s = (.ok (), s') ∧ valid s' ∧
      look s' (key name) = some (content text) ∧ ∀ k, k ≠ key name → look s' k = look s k

namespace Depot

variable {σ κ β : Type} (depot : Depot σ κ β) (root : Cursor)

/-- The outcome for an artifact, told by its text and its name. -/
def outcome (artifact : String) (text : Except ExportError String) : Outcome where
  artifact := artifact
  result :=
    match text, depot.refusal? artifact with
    | .error x, _ => .error x
    | .ok _, some x => .error (.storage x)
    | .ok _, none => .ok ()

/-- What becomes of an exporter, told by its own text and its own name. -/
def verdict (e : Exporter) : Except Panic Outcome :=
  (e.render root).map (depot.outcome e.artifact)

/-- The artifact of an exporter gets written: it can be rendered, and its name
    is not refused. -/
def Writes (e : Exporter) : Prop :=
  (∃ text, e.render root = .ok (.ok text)) ∧ depot.refusal? e.artifact = none

variable {depot root}

theorem verdict_of_ok {e : Exporter} {text : Except ExportError String}
    (h : e.render root = .ok text) :
    depot.verdict root e = .ok (depot.outcome e.artifact text) := by
  rw [verdict, h]
  rfl

theorem verdict_eq_error_iff {e : Exporter} {p : Panic} :
    depot.verdict root e = .error p ↔ e.render root = .error p := by
  rw [verdict]
  cases e.render root <;> simp [Except.map]

/-- The verdict on an exporter that does not panic says whether its artifact
    gets written. -/
theorem of_verdict_eq_ok {e : Exporter} {o : Outcome} (h : depot.verdict root e = .ok o) :
    o.artifact = e.artifact ∧ (o.isWritten = true ↔ depot.Writes root e) := by
  rw [Writes]
  cases hrender : e.render root with
  | error p =>
    rw [verdict_eq_error_iff.2 hrender] at h
    cases h
  | ok text =>
    rw [verdict_of_ok hrender] at h
    obtain rfl := Except.ok.inj h
    refine ⟨rfl, ?_⟩
    unfold outcome Outcome.isWritten
    cases text with
    | error x => simp
    | ok text =>
      cases depot.refusal? e.artifact with
      | some x => simp
      | none => simp

/-- An exporter that panics writes nothing. -/
theorem Writes.not_panicsAt {e : Exporter} (h : depot.Writes root e) : ¬e.PanicsAt root := by
  obtain ⟨⟨text, htext⟩, -⟩ := h
  rintro ⟨p, hp⟩
  rw [hp] at htext
  cases htext

/-- What one exporter does to the state of a sink. -/
structure Effect (depot : Depot σ κ β) (root : Cursor) (e : Exporter) (s s' : σ) : Prop where
  /-- The sink can still be used. -/
  valid : depot.valid s'
  /-- If the artifact is written, it is kept. -/
  kept : depot.Writes root e → ∀ text, e.render root = .ok (.ok text) →
    depot.look s' (depot.key e.artifact) = some (depot.content text)
  /-- All else stays. -/
  untouched : ∀ k, (depot.Writes root e → depot.key e.artifact ≠ k) →
    depot.look s' k = depot.look s k

/-- An exporter that writes nothing changes nothing. -/
theorem Effect.of_not_writes {e : Exporter} {s : σ} (hs : depot.valid s)
    (h : ¬depot.Writes root e) : depot.Effect root e s s where
  valid := hs
  kept := fun hw => absurd hw h
  untouched := fun _ _ => rfl

/-- Writing a text of an exporter has the outcome for it, whatever the state of
    the sink. -/
theorem run_deliver (root : Cursor) {e : Exporter} {text : Except ExportError String} {s : σ}
    (hs : depot.valid s) (hserves : depot.serves e.artifact) (hrender : e.render root = .ok text) :
    ∃ s', (deliver depot.sink e.artifact text).run s = (depot.outcome e.artifact text, s') ∧
      depot.Effect root e s s' := by
  cases text with
  | error x =>
    have hnot : ¬depot.Writes root e := by
      rw [Writes, hrender]
      simp
    exact ⟨s, rfl, .of_not_writes hs hnot⟩
  | ok text =>
    cases hrefusal : depot.refusal? e.artifact with
    | some x =>
      have hnot : ¬depot.Writes root e := by
        rw [Writes, hrefusal]
        simp
      refine ⟨s, ?_, .of_not_writes hs hnot⟩
      rw [run_deliver_ok (depot.refuse text hs hserves hrefusal)]
      unfold outcome
      rw [hrefusal]
      rfl
    | none =>
      obtain ⟨s', hsink, hvalid, hkept, hrest⟩ := depot.accept text hs hserves hrefusal
      refine ⟨s', ?_, hvalid, ?_, ?_⟩
      · rw [run_deliver_ok hsink]
        unfold outcome
        rw [hrefusal]
        rfl
      · intro _ text' htext'
        rw [hrender] at htext'
        obtain rfl := Except.ok.inj (Except.ok.inj htext')
        exact hkept
      · intro k hk
        exact hrest k (hk ⟨⟨text, hrender⟩, hrefusal⟩).symm

/-! ## Section 3: What all exporters together leave behind -/

variable {exporters : List Exporter}

/-- What a run of all exporters leaves behind, whatever their order. -/
structure Settled (depot : Depot σ κ β) (root : Cursor) (exporters : List Exporter) (s s' : σ) :
    Prop where
  /-- What was written is kept. -/
  kept : ∀ e ∈ exporters, depot.Writes root e → ∀ text, e.render root = .ok (.ok text) →
    depot.look s' (depot.key e.artifact) = some (depot.content text)
  /-- All else is as it was. -/
  untouched : ∀ k, (∀ e ∈ exporters, depot.Writes root e → depot.key e.artifact ≠ k) →
    depot.look s' k = depot.look s k

/-- Two runs that write the same artifacts leave the same behind. -/
theorem Settled.look_eq {others : List Exporter} {s s₁ s₂ : σ}
    (h₁ : depot.Settled root exporters s s₁) (h₂ : depot.Settled root others s s₂)
    (hsame : ∀ e, depot.Writes root e → (e ∈ exporters ↔ e ∈ others)) (k : κ) :
    depot.look s₁ k = depot.look s₂ k := by
  by_cases hk : ∃ e ∈ exporters, depot.Writes root e ∧ depot.key e.artifact = k
  · obtain ⟨e, he, hwrites, rfl⟩ := hk
    obtain ⟨text, htext⟩ := hwrites.1
    rw [h₁.kept e he hwrites text htext, h₂.kept e ((hsame e hwrites).1 he) hwrites text htext]
  · have hnone : ∀ e ∈ exporters, depot.Writes root e → depot.key e.artifact ≠ k := by
      intro e he hwrites hkey
      exact hk ⟨e, he, hwrites, hkey⟩
    have hnone' : ∀ e ∈ others, depot.Writes root e → depot.key e.artifact ≠ k := by
      intro e he hwrites
      exact hnone e ((hsame e hwrites).2 he) hwrites
    rw [h₁.untouched k hnone, h₂.untouched k hnone']

/-! ## Section 4: Reports of settled runs -/

variable {outcomes : List Outcome}

theorem mem_written_iff (h : outcomes.map .ok = exporters.map (depot.verdict root))
    {name : String} :
    name ∈ (Report.mk outcomes).written ↔
      ∃ e ∈ exporters, depot.Writes root e ∧ e.artifact = name := by
  rw [Report.written, List.mem_map]
  constructor
  · rintro ⟨o, ho, rfl⟩
    obtain ⟨hmem, hwritten⟩ := List.mem_filter.1 ho
    have hverdict : .ok o ∈ exporters.map (depot.verdict root) := h ▸ List.mem_map_of_mem hmem
    obtain ⟨e, he, heq⟩ := List.mem_map.1 hverdict
    obtain ⟨hartifact, hwrites⟩ := of_verdict_eq_ok heq
    exact ⟨e, he, hwrites.1 hwritten, hartifact.symm⟩
  · rintro ⟨e, he, hwrites, rfl⟩
    have hverdict : depot.verdict root e ∈ outcomes.map .ok := h ▸ List.mem_map_of_mem he
    obtain ⟨o, ho, heq⟩ := List.mem_map.1 hverdict
    obtain ⟨hartifact, hwritten⟩ := of_verdict_eq_ok heq.symm
    exact ⟨o, List.mem_filter.2 ⟨ho, hwritten.2 hwrites⟩, hartifact⟩

/-- The outcomes stand in the order of the exporters. -/
theorem map_artifact_of_verdicts (h : outcomes.map .ok = exporters.map (depot.verdict root)) :
    outcomes.map (·.artifact) = exporters.map (·.artifact) := by
  induction exporters generalizing outcomes with
  | nil =>
    rw [List.map_nil, List.map_eq_nil_iff] at h
    rw [h, List.map_nil, List.map_nil]
  | cons e exporters ih =>
    cases outcomes with
    | nil => cases h
    | cons o outcomes =>
      obtain ⟨ho, hrest⟩ := List.cons.inj h
      rw [List.map_cons, List.map_cons, ih hrest, (of_verdict_eq_ok ho.symm).1]

/-- Exporters of one list with the same name are the same. -/
theorem eq_of_artifact_eq (hnames : (exporters.map (·.artifact)).Nodup) {e f : Exporter}
    (he : e ∈ exporters) (hf : f ∈ exporters) (h : e.artifact = f.artifact) : e = f :=
  List.inj_on_of_nodup_map hnames he hf h

/-- Where names are distinct, a written name tells its exporter. -/
theorem artifact_mem_written_iff (hnames : (exporters.map (·.artifact)).Nodup)
    (h : outcomes.map .ok = exporters.map (depot.verdict root)) {e : Exporter}
    (he : e ∈ exporters) :
    e.artifact ∈ (Report.mk outcomes).written ↔ depot.Writes root e := by
  rw [mem_written_iff h]
  constructor
  · rintro ⟨f, hf, hwrites, hname⟩
    obtain rfl := eq_of_artifact_eq hnames hf he hname
    exact hwrites
  · intro hwrites
    exact ⟨e, he, hwrites, rfl⟩

/-- What a run has done, seen from its report. -/
structure Isolates (depot : Depot σ κ β) (root : Cursor) (exporters : List Exporter) (s : σ)
    (report : Report) (s' : σ) : Prop where
  /-- There is one outcome for each exporter, in their order, and it is told by
      that exporter alone. -/
  outcomes : report.outcomes.map .ok = exporters.map (depot.verdict root)
  /-- An artifact is written if its text was rendered and its name accepted. -/
  written_iff : ∀ e ∈ exporters, e.artifact ∈ report.written ↔ depot.Writes root e
  /-- A written artifact is kept with the text that its exporter rendered. -/
  kept : ∀ e ∈ exporters, e.artifact ∈ report.written → ∃ text, e.render root = .ok (.ok text) ∧
    depot.look s' (depot.key e.artifact) = some (depot.content text)
  /-- Where nothing was written, there is what was there before. -/
  untouched : ∀ k, (∀ name ∈ report.written, depot.key name ≠ k) →
    depot.look s' k = depot.look s k
  /-- An exporter that fails leaves its own entry alone. -/
  failed : ∀ e ∈ exporters, ¬depot.Writes root e →
    depot.look s' (depot.key e.artifact) = depot.look s (depot.key e.artifact)
  /-- The exit code is zero if nothing failed, -/
  success : report.exitCode = 0 ↔ report.failures = []
  /-- which is so if every artifact was written, -/
  complete : report.failures = [] ↔ report.written = exporters.map (·.artifact)
  /-- and otherwise two. -/
  failure : report.failures ≠ [] → report.exitCode = 2

theorem Settled.isolates (hserves : ∀ e ∈ exporters, depot.serves e.artifact)
    (hnames : (exporters.map (·.artifact)).Nodup) {s s' : σ}
    (h : depot.Settled root exporters s s')
    (houtcomes : outcomes.map .ok = exporters.map (depot.verdict root)) :
    depot.Isolates root exporters s ⟨outcomes⟩ s' where
  outcomes := houtcomes
  written_iff := by
    intro e he
    exact artifact_mem_written_iff hnames houtcomes he
  kept := by
    intro e he hwritten
    have hwrites := (artifact_mem_written_iff hnames houtcomes he).1 hwritten
    obtain ⟨text, htext⟩ := hwrites.1
    exact ⟨text, htext, h.kept e he hwrites text htext⟩
  untouched := by
    intro k hk
    apply h.untouched k
    intro e he hwrites
    exact hk e.artifact ((mem_written_iff houtcomes).2 ⟨e, he, hwrites, rfl⟩)
  failed := by
    intro e he hnot
    apply h.untouched
    intro f hf hwrites hkey
    have hname := depot.key_injective (hserves f hf) (hserves e he) hkey
    obtain rfl := eq_of_artifact_eq hnames hf he hname
    exact hnot hwrites
  success := Report.exitCode_eq_zero_iff _
  complete := by
    rw [Report.failures_eq_nil_iff, ← Report.written_eq_iff]
    show _ = outcomes.map (·.artifact) ↔ _
    rw [map_artifact_of_verdicts houtcomes]
  failure := Report.exitCode_of_failures_ne_nil _

theorem Isolates.exitCode_eq_zero_iff {s s' : σ} {report : Report}
    (h : depot.Isolates root exporters s report s') :
    report.exitCode = 0 ↔ ∀ e ∈ exporters, e.artifact ∈ report.written := by
  rw [h.success]
  constructor
  · intro hnil e he
    rw [h.complete.1 hnil]
    exact List.mem_map_of_mem he
  · intro hall
    rw [Report.failures_eq_nil_iff]
    intro o ho
    have hverdict : .ok o ∈ exporters.map (depot.verdict root) :=
      h.outcomes ▸ List.mem_map_of_mem ho
    obtain ⟨e, he, heq⟩ := List.mem_map.1 hverdict
    exact (of_verdict_eq_ok heq).2.2 ((h.written_iff e he).1 (hall e he))

theorem Isolates.exitCode_eq_two_iff {s s' : σ} {report : Report}
    (h : depot.Isolates root exporters s report s') :
    report.exitCode = 2 ↔ ∃ e ∈ exporters, e.artifact ∉ report.written := by
  constructor
  · intro htwo
    by_contra hnone
    have hall : ∀ e ∈ exporters, e.artifact ∈ report.written := by
      intro e he
      by_contra hnot
      exact hnone ⟨e, he, hnot⟩
    have hzero := h.exitCode_eq_zero_iff.2 hall
    omega
  · rintro ⟨e, he, hnot⟩
    apply h.failure
    intro hnil
    exact hnot (h.exitCode_eq_zero_iff.1 (h.success.2 hnil) e he)

end Depot

end Pipeline

/-! ## Section 5: Shelves -/

/-- Of two keys of a list, replacing the value of one leaves the other alone. -/
theorem lookup_cons_filter_ne {α β : Type} [BEq α] [LawfulBEq α] [DecidableEq α] {a b : α}
    (h : b ≠ a) (v : β) (l : List (α × β)) :
    ((a, v) :: l.filter (·.1 ≠ a)).lookup b = l.lookup b := by
  have hba : (b == a) = false := beq_false_of_ne h
  rw [List.lookup_cons, hba]
  induction l with
  | nil => rfl
  | cons x rest ih =>
    obtain ⟨c, w⟩ := x
    by_cases hc : c = a
    · subst hc
      simpa [List.lookup_cons, hba] using ih
    · by_cases hb : b = c
      · subst hb
        simp [hc]
      · simpa [List.lookup_cons, hc, beq_false_of_ne hb] using ih

namespace Shelf

theorem run_sink (s : Shelf) (name text : String) :
    (sink name text).run s =
      match s.put name text with
      | .ok s' => (.ok (), s')
      | .error e => (.error e, s) := by
  have hget : (get : StateM Shelf Shelf).run s = (s, s) := rfl
  rw [sink, run_bind_eq, hget]
  cases s.put name text with
  | ok s' => rfl
  | error e => rfl

/-- A shelf that refuses the given names. -/
def depot (refused : List String) : Pipeline.Depot Shelf String String where
  sink := sink
  serves _ := True
  valid s := s.refused = refused
  look := get?
  key := id
  content := id
  refusal? name := if name ∈ refused then some .readOnly else none
  key_injective := fun _ _ h => h
  refuse := by
    rintro s name e text rfl _ he
    by_cases hmem : name ∈ s.refused
    · rw [if_pos hmem] at he
      obtain rfl := Option.some.inj he
      rw [run_sink, put, if_pos hmem]
    · rw [if_neg hmem] at he
      cases he
  accept := by
    rintro s name text rfl _ he
    by_cases hmem : name ∈ s.refused
    · rw [if_pos hmem] at he
      cases he
    · refine ⟨{ s with files := (name, text) :: s.files.filter (·.1 ≠ name) }, ?_, rfl, ?_, ?_⟩
      · rw [run_sink, put, if_neg hmem]
      · exact List.lookup_cons_self
      · intro k hk
        exact lookup_cons_filter_ne hk text s.files

end Shelf

end JavaTree
