import JavaTree.Proofs.Pipeline.Depot
import JavaTree.Analysis
import JavaTree.Storage.FileTree
import Mathlib.Data.List.Induction

/-! # Directories of a file tree

    What the operations on a file tree do to its entries.  Making directories
    adds directories and nothing else (`FileTree.run_ensureDirectories`), and
    it succeeds exactly if no file stands on the way
    (`FileTree.makes_ensureDirectories`).  Writing a file into a directory
    touches the place of that file only, so a directory is a sink that is a map
    (`FileTree.depot`): it refuses the names that stand for directories in it. -/

namespace JavaTree

/-! ## Section 1: Paths into a directory -/

/-- A text is cut on both sides of a separator. -/
theorem Text.pieces_append (sep : Char) (xs ys : List Char) :
    pieces sep (xs ++ sep :: ys) = pieces sep xs ++ pieces sep ys := by
  induction xs with
  | nil => simp [pieces]
  | cons c xs ih =>
    by_cases hc : c = sep
    · subst hc
      simp [pieces, ih]
    · rw [List.cons_append, pieces, if_neg hc, ih, pieces, if_neg hc]
      cases hp : pieces sep xs with
      | nil => exact absurd hp (pieces_ne_nil sep xs)
      | cons p ps => rfl

namespace Path

/-- A name that can stand in a directory: it is one step, and not one that
    stays in place or leads back. -/
def IsName (name : String) : Prop :=
  name ≠ "" ∧ name ≠ "." ∧ name ≠ ".." ∧ '/' ∉ name.toList

instance (name : String) : Decidable (IsName name) :=
  inferInstanceAs (Decidable (_ ∧ _ ∧ _ ∧ _))

theorem steps_of_isName {name : String} (h : IsName name) : steps name = [name] := by
  obtain ⟨hne, -, -, hslash⟩ := h
  rw [steps, Text.pieces_of_not_mem hslash]
  simp [hne]

theorem steps_append_slash (xs ys : List Char) :
    steps (String.ofList (xs ++ '/' :: ys)) =
      steps (String.ofList xs) ++ steps (String.ofList ys) := by
  simp only [steps, String.toList_ofList, Text.pieces_append, List.map_append, List.filter_append]

/-- The steps of a name in a directory are those of the directory and the name. -/
theorem steps_join (directory : String) {name : String} (h : IsName name) :
    steps (join directory name) = steps directory ++ [name] := by
  have hname : steps (String.ofList name.toList) = [name] := by
    rw [String.ofList_toList, steps_of_isName h]
  by_cases hempty : directory = ""
  · subst hempty
    have hjoin : join "" name = name := by simp [join]
    rw [hjoin, steps_of_isName h]
    rfl
  · by_cases hslash : endsInSlash directory = true
    · -- The slash is there already.
      have hlast : directory.toList.getLast? = some '/' := by
        simpa [endsInSlash] using hslash
      obtain ⟨xs, hxs⟩ := List.getLast?_eq_some_iff.1 hlast
      have hdirectory : directory = String.ofList (xs ++ '/' :: []) := by
        rw [← hxs, String.ofList_toList]
      have hjoin : join directory name = String.ofList (xs ++ '/' :: name.toList) := by
        apply String.toList_inj.1
        simp [join, hslash, hxs]
      rw [hjoin, steps_append_slash, hname, hdirectory, steps_append_slash]
      simp [steps, Text.pieces]
    · have hjoin :
          join directory name = String.ofList (directory.toList ++ '/' :: name.toList) := by
        apply String.toList_inj.1
        simp [join, hempty, hslash]
      rw [hjoin, steps_append_slash, hname, String.ofList_toList]

theorem endsInSlash_join (directory : String) {name : String} (h : IsName name) :
    endsInSlash (join directory name) = false := by
  obtain ⟨hne, -, -, hslash⟩ := h
  have hnil : name.toList ≠ [] := by
    intro hnil
    exact hne (String.toList_inj.1 hnil)
  have hlast : (join directory name).toList.getLast? = name.toList.getLast? := by
    rw [join]
    split
    · rw [String.toList_append, List.getLast?_append_of_ne_nil _ hnil]
    · rw [String.toList_append, List.getLast?_append_of_ne_nil _ hnil]
  rw [endsInSlash, hlast, decide_eq_false_iff_not]
  intro heq
  exact hslash (List.mem_of_getLast? heq)

theorem join_ne_empty (directory : String) {name : String} (h : IsName name) :
    join directory name ≠ "" := by
  intro hjoin
  have hsteps := steps_join directory h
  rw [hjoin] at hsteps
  simp [steps, Text.pieces] at hsteps

/-- The components of a path, put together again, are its steps. -/
theorem steps_ofComponents (absolute : Bool) {cs : List String}
    (h : ∀ c ∈ cs, c ≠ "" ∧ '/' ∉ c.toList) : steps (ofComponents absolute cs) = cs := by
  have hplain : ∀ c ∈ cs, steps c = [c] := by
    intro c hc
    obtain ⟨hne, hslash⟩ := h c hc
    rw [steps, Text.pieces_of_not_mem hslash]
    simp [hne]
  have hsteps : steps (String.intercalate "/" cs) = cs := by
    clear h
    induction cs with
    | nil => rfl
    | cons c cs ih =>
      have hrest := ih fun d hd => hplain d (List.mem_cons_of_mem c hd)
      cases cs with
      | nil =>
        rw [String.intercalate_singleton]
        exact hplain c List.mem_cons_self
      | cons d cs =>
        have hjoin : String.intercalate "/" (c :: d :: cs) =
            String.ofList (c.toList ++ '/' :: (String.intercalate "/" (d :: cs)).toList) := by
          apply String.toList_inj.1
          simp [String.intercalate_cons_cons]
        rw [hjoin, steps_append_slash, String.ofList_toList, String.ofList_toList, hrest,
          hplain c List.mem_cons_self, List.singleton_append]
  cases absolute with
  | false =>
    rw [ofComponents, if_neg Bool.false_ne_true, String.empty_append]
    exact hsteps
  | true =>
    have hjoin : ofComponents true cs =
        String.ofList ([] ++ '/' :: (String.intercalate "/" cs).toList) := by
      apply String.toList_inj.1
      simp [ofComponents]
    rw [hjoin, steps_append_slash, String.ofList_toList, hsteps]
    rfl

theorem of_mem_components {path c : String} (h : c ∈ components path) :
    c ≠ "" ∧ '/' ∉ c.toList := by
  have hstep : c ∈ steps path := List.mem_of_mem_filter h
  rw [steps, List.mem_filter] at hstep
  obtain ⟨hmem, hne⟩ := hstep
  obtain ⟨p, hp, rfl⟩ := List.mem_map.1 hmem
  refine ⟨by simpa using hne, ?_⟩
  rw [String.toList_ofList]
  exact Text.not_mem_of_mem_pieces hp

theorem properPrefixes_concat {α : Type} (l : List α) (x : α) :
    properPrefixes (l ++ [x]) = l :: properPrefixes l := by
  have htake : ∀ n ∈ List.range l.length, (l ++ [x]).take n = l.take n := by
    intro n hn
    exact List.take_append_of_le_length (Nat.le_of_lt (List.mem_range.1 hn))
  rw [properPrefixes, properPrefixes, List.length_append, List.length_singleton,
    List.range_succ, List.map_append, List.reverse_append, List.map_congr_left htake]
  simp

end Path

namespace FileTree

/-! ## Section 2: Entries -/

theorem entry?_put_ne (t : FileTree) {p q : Place} (e : Entry) (h : q ≠ p) :
    entry? (t.put p e) q = t.entry? q := by
  unfold entry?
  split
  · rfl
  · exact lookup_cons_filter_ne h e t.entries

theorem entry?_put_self (t : FileTree) {p : Place} (e : Entry) (h : p ≠ []) :
    entry? (t.put p e) p = some e := by
  unfold entry?
  rw [if_neg h]
  exact List.lookup_cons_self

theorem entry?_nil (t : FileTree) : t.entry? [] = some .directory := by
  unfold entry?
  rw [if_pos rfl]

/-- There is a file with the given contents at a place. -/
def FileAt (t : FileTree) (p : Place) (contents : ByteArray) : Prop :=
  t.entry? p = some (.file contents)

/-- A place that is no directory is not the working directory. -/
theorem ne_nil_of_not_directory {t : FileTree} {p : Place} (h : t.entry? p ≠ some .directory) :
    p ≠ [] := by
  rintro rfl
  exact h t.entry?_nil

/-! ## Section 3: Following paths -/

theorem follow_append {t : FileTree} {p q : Place} {xs : List String} (ys : List String)
    (h : t.follow p xs = .ok q) : t.follow p (xs ++ ys) = t.follow q ys := by
  induction xs generalizing p with
  | nil =>
    obtain rfl := Except.ok.inj h
    rfl
  | cons x xs ih =>
    rw [follow] at h
    rw [List.cons_append, follow]
    cases hp : t.entry? p with
    | none =>
      rw [hp] at h
      cases h
    | some entry =>
      rw [hp] at h
      cases entry with
      | file contents => cases h
      | directory => exact ih h

/-- Every directory of the one tree is a directory of the other. -/
def KeepsDirectories (t t' : FileTree) : Prop :=
  ∀ p, t.entry? p = some .directory → t'.entry? p = some .directory

theorem keepsDirectories_put {t : FileTree} {x : Place} (e : Entry)
    (hx : t.entry? x ≠ some .directory) : t.KeepsDirectories (t.put x e) := by
  intro p hp
  have hne : p ≠ x := by
    rintro rfl
    exact hx hp
  rw [entry?_put_ne t e hne]
  exact hp

/-- On the way only directories matter. -/
theorem follow_mono {t t' : FileTree} (hkeeps : t.KeepsDirectories t') {p q : Place}
    {steps : List String} (h : t.follow p steps = .ok q) : t'.follow p steps = .ok q := by
  induction steps generalizing p with
  | nil => exact h
  | cons step steps ih =>
    rw [follow] at h
    cases hp : t.entry? p with
    | none =>
      rw [hp] at h
      cases h
    | some entry =>
      rw [hp] at h
      cases entry with
      | file contents => cases h
      | directory =>
        rw [follow, hkeeps p hp]
        exact ih h

/-- A path leads to a directory.  The empty path leads to the working
    directory. -/
def Leads (t : FileTree) (directory : String) (p : Place) : Prop :=
  t.follow [] (Path.steps directory) = .ok p ∧ t.entry? p = some .directory

theorem Leads.mono {t t' : FileTree} (hkeeps : t.KeepsDirectories t') {directory : String}
    {p : Place} (h : t.Leads directory p) : t'.Leads directory p :=
  ⟨follow_mono hkeeps h.1, hkeeps p h.2⟩

theorem leads_empty (t : FileTree) : t.Leads "" [] := by
  refine ⟨?_, t.entry?_nil⟩
  simp [Path.steps, Text.pieces, follow]

theorem place_eq {t : FileTree} {path : String} {p : Place} (h : t.place path = .ok p) :
    t.follow [] (Path.steps path) = .ok p := by
  rw [place] at h
  split at h
  · cases h
  · exact h

/-- The place of a name in a directory. -/
theorem place_join {t : FileTree} {directory : String} {p : Place} (h : t.Leads directory p)
    {name : String} (hname : Path.IsName name) :
    t.place (Path.join directory name) = .ok (p ++ [name]) := by
  obtain ⟨hfollow, hentry⟩ := h
  have hnext : Place.next p name = p ++ [name] := by
    obtain ⟨-, hdot, hdots, -⟩ := hname
    rw [Place.next, if_neg hdot, if_neg hdots]
  rw [place, if_neg (Path.join_ne_empty directory hname), Path.steps_join directory hname,
    follow_append [name] hfollow, follow, hentry]
  dsimp only
  rw [hnext, follow]

/-- What a name in a directory leads to is the entry at its place. -/
theorem find_join {t : FileTree} {directory : String} {p : Place} (h : t.Leads directory p)
    {name : String} (hname : Path.IsName name) :
    t.find (Path.join directory name) =
      match t.entry? (p ++ [name]) with
      | none => .error .notFound
      | some e => .ok e := by
  have hslash := Path.endsInSlash_join directory hname
  rw [find, place_join h hname]
  cases hentry : t.entry? (p ++ [name]) with
  | none => simp [hentry, bind, Except.bind]
  | some e =>
    cases e with
    | directory => simp [hentry, bind, Except.bind, pure, Except.pure]
    | file contents => simp [hentry, hslash, bind, Except.bind, pure, Except.pure]

/-- The places that some steps lead through, the first one left out. -/
def visited (p : Place) : List String → List Place
  | [] => []
  | step :: rest => Place.next p step :: visited (Place.next p step) rest

/-- The place that some steps lead to. -/
def goal (p : Place) (steps : List String) : Place := steps.foldl Place.next p

theorem visited_concat (p : Place) (steps : List String) (step : String) :
    visited p (steps ++ [step]) = visited p steps ++ [goal p (steps ++ [step])] := by
  induction steps generalizing p with
  | nil => rfl
  | cons s steps ih => exact congrArg (Place.next p s :: ·) (ih (Place.next p s))

/-- A way is followed to its goal unless something is missing on it, or there
    is a file in between. -/
theorem follow_concat_cases (t : FileTree) (p : Place) (steps : List String) (step : String) :
    ((∀ q ∈ p :: visited p steps, t.entry? q = some .directory) ∧
      t.follow p (steps ++ [step]) = .ok (goal p (steps ++ [step]))) ∨
    ((∃ q ∈ p :: visited p steps, t.entry? q = none) ∧
      t.follow p (steps ++ [step]) = .error .notFound) ∨
    (∃ q ∈ p :: visited p steps, ∃ contents, t.FileAt q contents) ∧
      t.follow p (steps ++ [step]) = .error .notDirectory := by
  induction steps generalizing p with
  | nil =>
    rw [List.nil_append, follow]
    cases hp : t.entry? p with
    | none => exact .inr (.inl ⟨⟨p, List.mem_cons_self, hp⟩, rfl⟩)
    | some entry =>
      cases entry with
      | file contents => exact .inr (.inr ⟨⟨p, List.mem_cons_self, contents, hp⟩, rfl⟩)
      | directory => exact .inl ⟨by simpa [visited] using hp, rfl⟩
  | cons s steps ih =>
    rw [List.cons_append, follow]
    cases hp : t.entry? p with
    | none => exact .inr (.inl ⟨⟨p, List.mem_cons_self, hp⟩, rfl⟩)
    | some entry =>
      cases entry with
      | file contents => exact .inr (.inr ⟨⟨p, List.mem_cons_self, contents, hp⟩, rfl⟩)
      | directory =>
        rcases ih (Place.next p s) with ⟨hall, hok⟩ | ⟨⟨q, hq, hnone⟩, herror⟩ |
          ⟨⟨q, hq, hfile⟩, herror⟩
        · exact .inl ⟨List.forall_mem_cons.2 ⟨hp, hall⟩, hok⟩
        · exact .inr (.inl ⟨⟨q, List.mem_cons_of_mem p hq, hnone⟩, herror⟩)
        · exact .inr (.inr ⟨⟨q, List.mem_cons_of_mem p hq, hfile⟩, herror⟩)

/-- Steps that stay in place make no difference on a way that ends in another
    one. -/
theorem follow_filter_dots (t : FileTree) (p : Place) {steps : List String}
    (h : steps.getLast? ≠ some ".") :
    t.follow p (steps.filter (· ≠ ".")) = t.follow p steps := by
  induction steps generalizing p with
  | nil => rfl
  | cons s steps ih =>
    cases steps with
    | nil =>
      have hs : s ≠ "." := fun heq => h (by rw [heq]; rfl)
      rw [List.filter_cons_of_pos (by simpa using hs), List.filter_nil]
    | cons s' steps =>
      have hrest := fun q => ih q (by rwa [List.getLast?_cons_cons] at h)
      by_cases hs : s = "."
      · have hnext : Place.next p s = p := by rw [Place.next, if_pos hs]
        rw [List.filter_cons_of_neg (by simpa using hs), hrest, follow, follow, hnext, follow]
        cases t.entry? p with
        | none => rfl
        | some entry => cases entry <;> rfl
      · rw [List.filter_cons_of_pos (by simpa using hs), follow, follow]
        simp only [hrest]

/-! ## Section 4: Making directories -/

/-- Nothing but directories was added. -/
def Grows (t t' : FileTree) : Prop :=
  ∀ p, t'.entry? p = t.entry? p ∨ t.entry? p = none ∧ t'.entry? p = some .directory

theorem Grows.refl (t : FileTree) : t.Grows t := fun _ => .inl rfl

theorem Grows.trans {t t₁ t₂ : FileTree} (h₁ : t.Grows t₁) (h₂ : t₁.Grows t₂) : t.Grows t₂ := by
  intro p
  rcases h₁ p with h₁ | ⟨hnone, hdirectory⟩
  · rcases h₂ p with h₂ | ⟨hnone, hdirectory⟩
    · exact .inl (h₂.trans h₁)
    · exact .inr ⟨h₁ ▸ hnone, hdirectory⟩
  · rcases h₂ p with h₂ | ⟨hnone', -⟩
    · exact .inr ⟨hnone, h₂.trans hdirectory⟩
    · rw [hdirectory] at hnone'
      cases hnone'

theorem Grows.keepsDirectories {t t' : FileTree} (h : t.Grows t') : t.KeepsDirectories t' := by
  intro p hp
  rcases h p with heq | ⟨hnone, -⟩
  · rw [heq]
    exact hp
  · rw [hnone] at hp
    cases hp

/-- The files are the same as before. -/
theorem Grows.fileAt_iff {t t' : FileTree} (h : t.Grows t') (p : Place) (contents : ByteArray) :
    t'.FileAt p contents ↔ t.FileAt p contents := by
  rw [FileAt, FileAt]
  rcases h p with h | ⟨hnone, hdirectory⟩
  · rw [h]
  · rw [hnone, hdirectory]
    constructor <;> rintro ⟨⟩

theorem run_change (f : FileTree → Except StorageError FileTree) (t : FileTree) :
    (change f).run t =
      match f t with
      | .ok t' => (.ok (), t')
      | .error e => (.error e, t) := by
  have hget : (get : StateM FileTree FileTree).run t = (t, t) := rfl
  rw [change, run_bind_eq, hget]
  cases f t with
  | ok t' => rfl
  | error e => rfl

section Making

variable {t : FileTree} {path : String}

theorem run_ensureDirectory_of_error {e : StorageError} (h : t.place path = .error e) :
    (storage.ensureDirectory path).run t = (.error e, t) := by
  have hmake : t.makeDirectory path = .error e := by
    rw [makeDirectory, h]
    rfl
  have hnot : t.isDirectory path = false := by
    rw [isDirectory, find, h]
    rfl
  have hrun : (storage.makeDirectory path).run t = _ := run_change (·.makeDirectory path) t
  rw [Storage.ensureDirectory, run_bind_eq, hrun, hmake]
  show ((if t.isDirectory path then pure (.ok ()) else pure (.error e) :
      StateM FileTree (Except StorageError Unit)).run t) = _
  rw [hnot]
  rfl

/-- A directory is made at a place where there is nothing, and only there. -/
theorem run_ensureDirectory_of_place {p : Place} (h : t.place path = .ok p) :
    (storage.ensureDirectory path).run t =
      match t.entry? p with
      | none => (.ok (), t.put p .directory)
      | some .directory => (.ok (), t)
      | some (.file _) => (.error .alreadyExists, t) := by
  have hmake : t.makeDirectory path =
      match t.entry? p with
      | none => .ok (t.put p .directory)
      | some _ => .error .alreadyExists := by
    rw [makeDirectory, h]
    cases hentry : t.entry? p <;> simp [hentry, bind, Except.bind, pure, Except.pure]
  have hrun : (storage.makeDirectory path).run t = _ := run_change (·.makeDirectory path) t
  rw [Storage.ensureDirectory, run_bind_eq, hrun, hmake]
  cases hentry : t.entry? p with
  | none => rfl
  | some entry =>
    show ((if t.isDirectory path then pure (.ok ()) else pure (.error .alreadyExists) :
      StateM FileTree (Except StorageError Unit)).run t) = _
    cases entry with
    | directory =>
      have hdirectory : t.isDirectory path = true := by
        rw [isDirectory, find, h]
        simp [hentry, bind, Except.bind, pure, Except.pure]
      rw [hdirectory]
      rfl
    | file contents =>
      have hnot : t.isDirectory path = false := by
        rw [isDirectory, find, h]
        by_cases hslash : Path.endsInSlash path = true <;>
          simp [hentry, hslash, bind, Except.bind, pure, Except.pure]
      rw [hnot]
      rfl

end Making

/-- The result of making a directory: nothing but directories was added, and
    on success the path leads to a directory. -/
def Ensured (t : FileTree) (path : String) (result : Except StorageError Unit × FileTree) : Prop :=
  t.Grows result.2 ∧ (result.1 = .ok () → ∃ p, result.2.Leads path p)

theorem run_ensureDirectory (t : FileTree) (path : String) :
    t.Ensured path ((storage.ensureDirectory path).run t) := by
  cases hplace : t.place path with
  | error e =>
    rw [run_ensureDirectory_of_error hplace]
    exact ⟨.refl t, nofun⟩
  | ok p =>
    rw [run_ensureDirectory_of_place hplace]
    cases hentry : t.entry? p with
    | none =>
      have hnot : t.entry? p ≠ some .directory := by
        rw [hentry]
        rintro ⟨⟩
      have hself := t.entry?_put_self .directory (ne_nil_of_not_directory hnot)
      have hfollow := follow_mono (keepsDirectories_put .directory hnot) (place_eq hplace)
      refine ⟨fun q => ?_, fun _ => ⟨p, hfollow, hself⟩⟩
      by_cases hq : q = p
      · subst hq
        exact .inr ⟨hentry, hself⟩
      · exact .inl (t.entry?_put_ne .directory hq)
    | some entry =>
      cases entry with
      | directory => exact ⟨.refl t, fun _ => ⟨p, place_eq hplace, hentry⟩⟩
      | file contents => exact ⟨.refl t, nofun⟩

/-- The result of making the first of some directories. -/
theorem run_ensureFirst (t : FileTree) (paths : List String) :
    t.Grows ((storage.ensureFirst paths).run t).2 ∧
      ∀ path, paths.head? = some path → t.Ensured path ((storage.ensureFirst paths).run t) := by
  induction paths generalizing t with
  | nil =>
    refine ⟨.refl t, ?_⟩
    rintro path ⟨⟩
  | cons path above ih =>
    suffices h : t.Ensured path ((storage.ensureFirst (path :: above)).run t) by
      refine ⟨h.1, ?_⟩
      rintro _ ⟨⟩
      exact h
    rw [Storage.ensureFirst]
    by_cases hpath : path = ""
    · subst hpath
      exact ⟨.refl t, fun _ => ⟨[], t.leads_empty⟩⟩
    · rw [if_neg hpath, run_bind_eq]
      have hfirst := t.run_ensureDirectory path
      rcases hrun : (storage.ensureDirectory path).run t with ⟨r₁, t₁⟩
      rw [hrun] at hfirst
      -- Whatever goes wrong later, only directories have been added so far.
      have hfailed : ∀ {e t₂}, t₁.Grows t₂ → t.Ensured path (.error e, t₂) := by
        intro e t₂ hgrows
        refine ⟨hfirst.1.trans hgrows, ?_⟩
        rintro ⟨⟩
      cases r₁ with
      | ok _ => exact hfirst
      | error e =>
        cases e with
        | notFound =>
          obtain ⟨habove, -⟩ := ih t₁
          dsimp only
          rw [run_bind_eq]
          rcases hrun' : (storage.ensureFirst above).run t₁ with ⟨r₂, t₂⟩
          rw [hrun'] at habove
          cases r₂ with
          | error e' => exact hfailed habove
          | ok _ =>
            obtain ⟨hgrows, hleads⟩ := t₂.run_ensureDirectory path
            exact ⟨(hfirst.1.trans habove).trans hgrows, hleads⟩
        | _ => exact hfailed (.refl t₁)

/-- Making a directory and those above it changes no file, and on success the
    path leads to a directory. -/
theorem run_ensureDirectories (t : FileTree) (path : String) :
    t.Ensured path ((storage.ensureDirectories path).run t) :=
  (t.run_ensureFirst (path :: Path.above path)).2 path rfl

/-! ## Section 5: When directories can be made -/

/-- No file stands on the way that some steps lead. -/
def Clear (t : FileTree) (steps : List String) : Prop :=
  ∀ q ∈ visited [] steps, ∀ contents, ¬t.FileAt q contents

/-- There are directories all along the way, and the rest is as it was. -/
def Opened (t : FileTree) (steps : List String) (t' : FileTree) : Prop :=
  ∀ q, t'.entry? q = if q ∈ visited [] steps then some .directory else t.entry? q

/-- What becomes of a file tree if the directories along a way are to be made:
    all of them are there, or a file stands on the way and there is a
    failure. -/
def Makes (t : FileTree) (steps : List String) (result : Except StorageError Unit × FileTree) :
    Prop :=
  (t.Clear steps ∧ result.1 = .ok () ∧ t.Opened steps result.2) ∨
    (¬t.Clear steps ∧ ∃ e, result.1 = .error e)

theorem makes_nil (t : FileTree) : t.Makes [] (.ok (), t) :=
  .inl ⟨nofun, rfl, fun _ => rfl⟩

theorem Clear.of_entry?_eq_none {t : FileTree} {steps : List String}
    (h : ∀ q ∈ visited [] steps, t.entry? q = none) : t.Clear steps := by
  intro q hq contents hfile
  rw [FileAt, h q hq] at hfile
  cases hfile

theorem Clear.of_concat {t : FileTree} {steps : List String} {step : String}
    (h : t.Clear (steps ++ [step])) : t.Clear steps := by
  intro q hq
  exact h q (by rw [visited_concat]; exact List.mem_append_left _ hq)

section Ways

variable {t t₁ : FileTree} {path : String} {steps : List String} {step : String}

/-- Directories that were made are no files, so the files are the same as
    before. -/
theorem Opened.fileAt_iff (hopened : t.Opened steps t₁) (hclear : t.Clear steps) (q : Place)
    (contents : ByteArray) : t₁.FileAt q contents ↔ t.FileAt q contents := by
  rw [FileAt, hopened q]
  split
  · have hnot : ¬t.FileAt q contents := hclear q ‹_› contents
    exact ⟨nofun, fun hfile => absurd hfile hnot⟩
  · exact Iff.rfl

/-- With one more directory at its end the way is open one step farther. -/
theorem Opened.concat (hopened : t.Opened steps t₁) {t₂ : FileTree}
    (h : ∀ q, t₂.entry? q =
      if q = goal [] (steps ++ [step]) then some .directory else t₁.entry? q) :
    t.Opened (steps ++ [step]) t₂ := by
  intro q
  rw [h q, hopened q, visited_concat]
  by_cases hq : q = goal [] (steps ++ [step])
  · simp [hq]
  · simp [hq]

/-- The way is clear if it is so far and there is no file at its end. -/
theorem Opened.clear_concat_iff (hopened : t.Opened steps t₁) (hclear : t.Clear steps) :
    t.Clear (steps ++ [step]) ↔
      ∀ contents, ¬t₁.FileAt (goal [] (steps ++ [step])) contents := by
  simp only [hopened.fileAt_iff hclear, Clear, visited_concat, List.mem_append,
    List.mem_singleton]
  constructor
  · intro h
    exact h _ (.inr rfl)
  · rintro h q (hq | rfl)
    · exact hclear q hq
    · exact h

/-- Where all but the last directory are there, the last one can be made unless
    its place holds a file. -/
theorem Opened.makes (hopened : t.Opened steps t₁) (hclear : t.Clear steps)
    (hplace : t₁.place path = t₁.follow [] (steps ++ [step])) :
    t.Makes (steps ++ [step]) ((storage.ensureDirectory path).run t₁) := by
  have hdirectories : ∀ q ∈ [] :: visited [] steps, t₁.entry? q = some .directory := by
    refine List.forall_mem_cons.2 ⟨t₁.entry?_nil, fun q hq => ?_⟩
    rw [hopened q, if_pos hq]
  have hgoal : t₁.place path = .ok (goal [] (steps ++ [step])) := by
    rcases t₁.follow_concat_cases [] steps step with ⟨-, hok⟩ | ⟨⟨q, hq, hnone⟩, -⟩ |
      ⟨⟨q, hq, contents, hfile⟩, -⟩
    · rw [hplace, hok]
    · rw [hdirectories q hq] at hnone
      cases hnone
    · rw [FileAt, hdirectories q hq] at hfile
      cases hfile
  rw [run_ensureDirectory_of_place hgoal, Makes, hopened.clear_concat_iff hclear]
  cases hentry : t₁.entry? (goal [] (steps ++ [step])) with
  | none =>
    have hne := ne_nil_of_not_directory (t := t₁) (by rw [hentry]; nofun)
    refine .inl ⟨fun contents hfile => ?_, rfl, hopened.concat fun q => ?_⟩
    · rw [FileAt, hentry] at hfile
      cases hfile
    · by_cases hq : q = goal [] (steps ++ [step])
      · rw [if_pos hq, hq]
        exact t₁.entry?_put_self .directory hne
      · rw [if_neg hq]
        exact t₁.entry?_put_ne .directory hq
  | some entry =>
    cases entry with
    | directory =>
      refine .inl ⟨fun contents hfile => ?_, rfl, hopened.concat fun q => ?_⟩
      · rw [FileAt, hentry] at hfile
        cases hfile
      · by_cases hq : q = goal [] (steps ++ [step])
        · rw [if_pos hq, hq]
          exact hentry
        · rw [if_neg hq]
    | file contents => exact .inr ⟨fun hall => hall contents hentry, _, rfl⟩

/-- If the directories above can be made, so can the last one, unless its place
    holds a file. -/
theorem makes_ensureFirst {above : List String} (hne : path ≠ "")
    (hplace : ∀ u : FileTree, u.place path = u.follow [] (steps ++ [step]))
    (habove : t.Makes steps ((storage.ensureFirst above).run t)) :
    t.Makes (steps ++ [step]) ((storage.ensureFirst (path :: above)).run t) := by
  rw [Storage.ensureFirst, if_neg hne, run_bind_eq]
  rcases t.follow_concat_cases [] steps step with ⟨hall, hok⟩ | ⟨-, herror⟩ |
    ⟨⟨q, hq, contents, hfile⟩, herror⟩
  · -- The directories above are there already.
    have hopened : t.Opened steps t := by
      intro q
      split
      · exact hall q (List.mem_cons_of_mem _ ‹_›)
      · rfl
    have hclear : t.Clear steps := by
      intro q hq contents hfile
      rw [FileAt, hall q (List.mem_cons_of_mem _ hq)] at hfile
      cases hfile
    have hmakes := hopened.makes hclear (hplace t)
    rw [run_ensureDirectory_of_place ((hplace t).trans hok)] at hmakes ⊢
    cases hentry : t.entry? (goal [] (steps ++ [step])) with
    | none =>
      rw [hentry] at hmakes
      exact hmakes
    | some entry =>
      rw [hentry] at hmakes
      cases entry <;> exact hmakes
  · -- A directory above is missing.
    rw [run_ensureDirectory_of_error ((hplace t).trans herror)]
    show t.Makes _ ((storage.ensureFirst above >>= _).run t)
    rw [run_bind_eq]
    rcases hrun : (storage.ensureFirst above).run t with ⟨r, t₁⟩
    rw [hrun] at habove
    rcases habove with ⟨hclear, hr, hopened⟩ | ⟨hblocked, e, hr⟩
    · obtain rfl : r = .ok () := hr
      exact hopened.makes hclear (hplace t₁)
    · obtain rfl : r = .error e := hr
      exact .inr ⟨fun hall => hblocked hall.of_concat, e, rfl⟩
  · -- A file stands in between.
    rw [run_ensureDirectory_of_error ((hplace t).trans herror)]
    refine .inr ⟨fun hall => ?_, _, rfl⟩
    rcases List.mem_cons.1 hq with rfl | hq
    · rw [FileAt, t.entry?_nil] at hfile
      cases hfile
    · exact hall.of_concat q hq contents hfile

end Ways

/-- The directories along a list of components are made from the first on. -/
theorem makes_above (t : FileTree) (absolute : Bool) {cs : List String}
    (h : ∀ c ∈ cs, c ≠ "" ∧ '/' ∉ c.toList) :
    t.Makes cs ((storage.ensureFirst ((cs :: Path.properPrefixes cs).map
      (Path.ofComponents absolute))).run t) := by
  induction cs using List.reverseRecOn with
  | nil =>
    cases absolute with
    | false => exact t.makes_nil
    | true => exact t.makes_nil
  | append_singleton cs c ih =>
    have hsteps := Path.steps_ofComponents absolute h
    have hne : Path.ofComponents absolute (cs ++ [c]) ≠ "" := by
      intro hempty
      rw [hempty] at hsteps
      simp [Path.steps, Text.pieces] at hsteps
    rw [Path.properPrefixes_concat, List.map_cons]
    refine makes_ensureFirst hne (fun u => ?_) (ih fun d hd => h d (List.mem_append_left _ hd))
    rw [place, if_neg hne, hsteps]

/-- Making a directory and those above it succeeds exactly if no file stands on
    the way.  The path must not end in a step that stays in place: such a step
    asks for a directory that is there already. -/
theorem makes_ensureDirectories (t : FileTree) {path : String}
    (h : (Path.steps path).getLast? ≠ some ".") :
    t.Makes (Path.components path) ((storage.ensureDirectories path).run t) := by
  rw [Storage.ensureDirectories, Path.above]
  rcases List.eq_nil_or_concat (Path.components path) with hnil | ⟨cs, c, hcs⟩
  · -- No step leads anywhere, so the path stands for the working directory.
    have hsteps : Path.steps path = [] := by
      have hall : ∀ s ∈ Path.steps path, s = "." := by
        simpa [Path.components, List.filter_eq_nil_iff] using hnil
      cases hlast : (Path.steps path).getLast? with
      | none => exact List.getLast?_eq_none_iff.1 hlast
      | some s => exact absurd (hall s (List.mem_of_getLast? hlast) ▸ hlast) h
    rw [hnil]
    by_cases hempty : path = ""
    · rw [hempty]
      exact t.makes_nil
    · have hplace : t.place path = .ok [] := by
        rw [place, if_neg hempty, hsteps]
        rfl
      show t.Makes [] ((storage.ensureFirst [path]).run t)
      rw [Storage.ensureFirst, if_neg hempty, run_bind_eq, run_ensureDirectory_of_place hplace,
        t.entry?_nil]
      exact t.makes_nil
  · rw [List.concat_eq_append] at hcs
    have hgood : ∀ d ∈ cs ++ [c], d ≠ "" ∧ '/' ∉ d.toList :=
      fun d hd => Path.of_mem_components (hcs ▸ hd)
    have hne : path ≠ "" := by
      rintro rfl
      simp [Path.components, Path.steps, Text.pieces] at hcs
    rw [hcs, Path.properPrefixes_concat]
    refine makes_ensureFirst hne (fun u => ?_)
      (t.makes_above (Path.isAbsolute path) fun d hd => hgood d (List.mem_append_left _ hd))
    rw [place, if_neg hne, ← hcs]
    exact (u.follow_filter_dots [] h).symm

/-! ## Section 6: A directory as a sink -/

theorem run_sink (t : FileTree) (directory name text : String) :
    (storage.sink directory name text).run t =
      match t.write (Path.join directory name) text with
      | .ok t' => (.ok (), t')
      | .error e => (.error e, t) :=
  run_change (·.write (Path.join directory name) text) t

section Writing

variable {t : FileTree} {directory name : String} {p : Place}

/-- Nothing is written over a directory. -/
theorem write_join_directory (hleads : t.Leads directory p) (hname : Path.IsName name)
    (hentry : t.entry? (p ++ [name]) = some .directory) (text : String) :
    t.write (Path.join directory name) text = .error .isDirectory := by
  rw [write, place_join hleads hname]
  simp [hentry, bind, Except.bind]

/-- Anywhere else in a directory, a file comes to the place of its name. -/
theorem write_join (hleads : t.Leads directory p) (hname : Path.IsName name)
    (hentry : t.entry? (p ++ [name]) ≠ some .directory) (text : String) :
    t.write (Path.join directory name) text =
      .ok (t.put (p ++ [name]) (.file text.toUTF8)) := by
  rw [write, place_join hleads hname]
  cases h : t.entry? (p ++ [name]) with
  | none => simp [h, bind, Except.bind, pure, Except.pure]
  | some e =>
    cases e with
    | directory => exact absurd h hentry
    | file contents => simp [h, bind, Except.bind, pure, Except.pure]

end Writing

/-- Why nothing is written where there is something already. -/
def refusal? : Option Entry → Option StorageError
  | some .directory => some .isDirectory
  | _ => none

theorem refusal?_eq_none_iff {o : Option Entry} : refusal? o = none ↔ o ≠ some .directory := by
  cases o with
  | none => simp [refusal?]
  | some e => cases e <;> simp [refusal?]

theorem refusal?_eq_some_iff {o : Option Entry} {e : StorageError} :
    refusal? o = some e ↔ o = some .directory ∧ e = .isDirectory := by
  cases o with
  | none => simp [refusal?]
  | some entry => cases entry <;> simp [refusal?, eq_comm]

/-- A directory that was reached in the tree `t`.  It refuses the names that
    stand for directories in it. -/
def depot (t : FileTree) (directory : String) (p : Place) :
    Pipeline.Depot FileTree Place Entry where
  sink := storage.sink directory
  serves := Path.IsName
  valid u := u.Leads directory p ∧
    ∀ name, u.entry? (p ++ [name]) = some .directory ↔ t.entry? (p ++ [name]) = some .directory
  look := entry?
  key name := p ++ [name]
  content text := .file text.toUTF8
  refusal? name := refusal? (t.entry? (p ++ [name]))
  key_injective := by
    intro a b _ _ h
    simpa using h
  refuse := by
    rintro u name e text ⟨hleads, hsame⟩ hname he
    obtain ⟨hentry, rfl⟩ := refusal?_eq_some_iff.1 he
    rw [run_sink, write_join_directory hleads hname ((hsame name).2 hentry)]
  accept := by
    rintro u name text ⟨hleads, hsame⟩ hname he
    have hentry : u.entry? (p ++ [name]) ≠ some .directory := by
      rw [Ne, hsame name]
      exact refusal?_eq_none_iff.1 he
    have hself := u.entry?_put_self (.file text.toUTF8) (ne_nil_of_not_directory hentry)
    have hleads' := hleads.mono (keepsDirectories_put (.file text.toUTF8) hentry)
    refine ⟨u.put (p ++ [name]) (.file text.toUTF8), ?_, ⟨hleads', ?_⟩, hself, ?_⟩
    · rw [run_sink, write_join hleads hname hentry]
    · -- The place that was written to held no directory and holds none now.
      intro other
      rw [← hsame other]
      by_cases heq : other = name
      · subst heq
        rw [hself]
        exact ⟨by rintro ⟨⟩, fun h => absurd h hentry⟩
      · rw [entry?_put_ne u _ (by simpa using heq)]
    · intro k hk
      exact u.entry?_put_ne _ hk

end FileTree

end JavaTree
