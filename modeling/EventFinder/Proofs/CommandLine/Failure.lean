import EventFinder.FileTree
import EventFinder.CommandLine
import EventFinder.Proofs.Import.Events
import EventFinder.Proofs.Store.History

/-!
# Failures change nothing

An import of an input that is at fault leaves a store as it is, with all that is pending and all snapshots.
A command line makes directories before it knows whether it can do what it is asked for, and nothing else: if
it fails, the file tree has at most grown by empty directories (`FileTree.GrowsTo`), which hold no records.
-/

set_option autoImplicit false

namespace EventFinder

namespace FileTree

/-! ## Growing by empty directories -/

/-- What stands in the first tree stands in the second one, and what else stands there are directories without
a journal. -/
structure GrowsTo (tree tree' : FileTree) : Prop where
  kept : ∀ place entry, tree.entry? place = some entry → tree'.entry? place = some entry
  added : ∀ place, tree.entry? place = none →
    tree'.entry? place = none ∨ tree'.entry? place = some (.directory [])

/-- The committed records of the index at a place, none if there is no index. -/
def recordsAt (tree : FileTree) (place : Place) : List Record :=
  match tree.entry? place with
  | some (.directory journal) => journal.index.snapshot.records
  | _ => []

namespace GrowsTo

variable {tree tree' tree'' : FileTree}

theorem refl (tree : FileTree) : tree.GrowsTo tree := ⟨fun _ _ h => h, fun _ h => Or.inl h⟩

theorem trans (h : tree.GrowsTo tree') (h' : tree'.GrowsTo tree'') : tree.GrowsTo tree'' where
  kept place entry hentry := h'.kept place entry (h.kept place entry hentry)
  added place hnone := by
    rcases h.added place hnone with hnone' | hdirectory
    · exact h'.added place hnone'
    · exact Or.inr (h'.kept place _ hdirectory)

/-- A directory without a journal has no records. -/
theorem recordsAt_eq (h : tree.GrowsTo tree') (place : Place) :
    tree'.recordsAt place = tree.recordsAt place := by
  rw [recordsAt, recordsAt]
  cases hentry : tree.entry? place with
  | some entry => rw [h.kept place entry hentry]
  | none =>
      rcases h.added place hentry with hnone | hdirectory
      · rw [hnone]
      · rw [hdirectory]
        rfl

end GrowsTo

theorem lookup_filter_ne {place p : Place} (h : p ≠ place) (entries : List (Place × Entry)) :
    (entries.filter fun e => e.1 ≠ place).lookup p = entries.lookup p := by
  induction entries with
  | nil => rfl
  | cons e rest ih =>
      obtain ⟨place', entry⟩ := e
      rw [List.lookup_cons]
      by_cases hplace : place' = place
      · subst hplace
        rw [List.filter_cons_of_neg (by simp), ih, beq_eq_false_iff_ne.2 h]
      · rw [List.filter_cons_of_pos (by simpa using hplace), List.lookup_cons, ih]

/-- What stands in a tree in which an entry was put at a place. -/
theorem entry?_put (tree : FileTree) (place : Place) (entry : Entry) (p : Place) :
    FileTree.entry? (tree.put place entry) p = if p = place then some entry else tree.entry? p := by
  have hlookup : (tree.put place entry).entries.lookup p =
      if p = place then some entry else tree.entries.lookup p := by
    rw [put, List.lookup_cons]
    by_cases hp : p = place
    · simp [hp]
    · rw [beq_eq_false_iff_ne.2 hp, if_neg hp]
      exact lookup_filter_ne hp tree.entries
  -- The root is there even if nothing was put at it.
  cases p with
  | nil =>
      rw [ entry?, hlookup, entry?]
      split
      · rfl
      · rfl
  | cons name rest => exact hlookup

theorem growsTo_put {tree : FileTree} {place : Place} (h : tree.entry? place = none) :
    tree.GrowsTo (tree.put place (.directory [])) where
  kept p entry hentry := by
    rw [entry?_put, if_neg]
    · exact hentry
    · rintro rfl
      rw [h] at hentry
      cases hentry
  added p hnone := by
    rw [entry?_put]
    split
    · exact Or.inr rfl
    · exact Or.inl hnone

theorem growsTo_makeStep (state : FileTree × Option Place) (name : String) :
    state.1.GrowsTo (makeStep state name).1 := by
  obtain ⟨tree, place⟩ := state
  cases place with
  | none => exact .refl tree
  | some place =>
      rw [makeStep]
      dsimp only
      split
      · exact .refl tree
      · exact .refl tree
      · rename_i hnone
        exact growsTo_put hnone

theorem growsTo_foldl_makeStep (names : List String) (state : FileTree × Option Place) :
    state.1.GrowsTo (names.foldl makeStep state).1 := by
  induction names generalizing state with
  | nil => exact .refl state.1
  | cons name rest ih => exact (growsTo_makeStep state name).trans (ih (makeStep state name))

theorem growsTo_makeDirectory (tree : FileTree) (path : String) :
    tree.GrowsTo (tree.makeDirectory path).1 := by
  rw [makeDirectory]
  split
  · exact .refl tree
  · exact growsTo_foldl_makeStep (Path.names path) (tree, some (tree.origin path))

end FileTree

/-! ## Programs that make directories -/

/-- A program on file trees makes no more than directories. -/
def Grows {α : Type} (program : StateM FileTree α) : Prop :=
  ∀ tree : FileTree, tree.GrowsTo (program.run tree).2

/-- If a program on file trees fails, it has made no more than directories. -/
def GrowsOnFailure {α : Type} (program : ExceptT Failure (StateM FileTree) α) : Prop :=
  ∀ (tree : FileTree) (e : Failure),
    (program.run.run tree).1 = .error e → tree.GrowsTo (program.run.run tree).2

section Programs

variable {α β : Type}

theorem grows_pure (a : α) : Grows (pure a : StateM FileTree α) := FileTree.GrowsTo.refl

theorem grows_bind {program : StateM FileTree α} {next : α → StateM FileTree β} (h : Grows program)
    (hnext : ∀ a, Grows (next a)) : Grows (program >>= next) := fun tree =>
  (h tree).trans (hnext (program.run tree).1 (program.run tree).2)

theorem grows_map {program : StateM FileTree α} (h : Grows program) (f : α → β) : Grows (f <$> program) := h

theorem grows_read (path : String) : Grows (Storage.read path : StateM FileTree FileContent) :=
  FileTree.GrowsTo.refl

theorem grows_loadJournal (path : String) : Grows (Storage.loadJournal path : StateM FileTree Journal) :=
  FileTree.GrowsTo.refl

theorem grows_makeDirectory (path : String) : Grows (Storage.makeDirectory path : StateM FileTree Bool) :=
  fun tree => FileTree.growsTo_makeDirectory tree path

theorem growsOnFailure_bind {program : ExceptT Failure (StateM FileTree) α}
    {next : α → ExceptT Failure (StateM FileTree) β} (h : Grows program.run)
    (hnext : ∀ a, GrowsOnFailure (next a)) : GrowsOnFailure (program >>= next) := by
  intro tree e he
  have hrun : (program >>= next).run.run tree =
      match (program.run.run tree).1 with
      | .ok a => (next a).run.run (program.run.run tree).2
      | .error e => (.error e, (program.run.run tree).2) := by
    rw [ExceptT.run_bind, StateT.run_bind]
    cases program.run.run tree with
    | mk outcome tree' =>
        cases outcome with
        | ok a => rfl
        | error e => rfl
  rw [hrun] at he ⊢
  cases houtcome : (program.run.run tree).1 with
  | ok a =>
      rw [houtcome] at he
      exact (h tree).trans (hnext a _ e he)
  | error e => exact h tree

end Programs

namespace CommandLine

theorem grows_resolve (explicit : Option String) (environment : Environment) :
    Grows (DataDirectory.resolve explicit environment) := by
  rw [DataDirectory.resolve]
  split
  · exact grows_pure _
  · refine grows_bind (grows_makeDirectory _) fun made => ?_
    split
    · exact grows_pure _
    · exact grows_pure _

theorem grows_loadSettings (root : String) : Grows (loadSettings root) := by
  refine grows_bind (grows_read _) fun content => ?_
  split
  · exact grows_pure _
  · exact grows_pure _
  · exact grows_pure _

theorem grows_openIndex (root : String) : Grows (openIndex root) := by
  refine grows_bind (grows_makeDirectory _) fun made => ?_
  split
  · exact grows_bind (grows_loadJournal _) fun journal => grows_pure _
  · exact grows_pure _

theorem grows_importFile (command : Command) : Grows (importFile command) := by
  rw [importFile.eq_def]
  split
  · split
    · exact grows_pure _
    · exact grows_read _
  · exact grows_pure _

/-- What is asked for is written behind all that can fail. -/
theorem growsOnFailure_runArguments (environment : Environment) (now : Int64) (input : ByteArray)
    (arguments : Arguments) : GrowsOnFailure (runArguments environment now input arguments) := by
  refine growsOnFailure_bind (grows_map (grows_resolve _ _) _) fun root => ?_
  refine growsOnFailure_bind (grows_loadSettings root) fun settings => ?_
  refine growsOnFailure_bind (grows_openIndex root) fun journal => ?_
  refine growsOnFailure_bind (grows_pure _) fun service => ?_
  have hfile := grows_bind (grows_importFile arguments.command) fun file =>
    grows_pure (.ok file : Except Failure FileContent)
  refine growsOnFailure_bind hfile fun file => ?_
  refine growsOnFailure_bind (grows_pure _) fun effect => ?_
  -- From here on nothing fails, whether something is written or not.
  intro tree e he
  cases hwrites : effect.writes with
  | none =>
      rw [hwrites] at he
      cases he
  | some changes =>
      rw [hwrites] at he
      cases he

/-- What comes of a command line on a file tree: the outcome, and the tree afterwards. -/
def runOn (environment : Environment) (now : Int64) (input : ByteArray) (words : List String)
    (tree : FileTree) : Outcome × FileTree :=
  (run environment now input words : StateM FileTree Outcome).run tree

variable {environment : Environment} {now : Int64} {input : ByteArray} {words : List String} {tree : FileTree}

/-- What arguments ask for succeeds with an output, or it fails. -/
theorem runOn_of_arguments {arguments : Arguments} (hwords : Arguments.ofList words = .ok arguments) :
    runOn environment now input words tree =
      match (runArguments environment now input arguments : ExceptT Failure (StateM FileTree) _).run.run
        tree with
      | (.ok output, tree') => (.success output, tree')
      | (.error failure, tree') => (.failed failure, tree') := by
  rw [runOn, run.eq_def, hwords]
  dsimp only
  rw [StateT.run_bind]
  cases (runArguments environment now input arguments : ExceptT Failure (StateM FileTree) _).run.run tree with
  | mk outcome tree' =>
      cases outcome with
      | ok output => rfl
      | error failure => rfl

/-- A command line that fails has made no more than directories. -/
theorem growsTo_of_failed (h : (runOn environment now input words tree).1.code ≠ 0) :
    tree.GrowsTo (runOn environment now input words tree).2 := by
  cases hwords : Arguments.ofList words with
  | error usage =>
      rw [runOn, run.eq_def, hwords]
      exact .refl tree
  | ok arguments =>
      have hgrows := growsOnFailure_runArguments environment now input arguments tree
      rw [runOn_of_arguments hwords] at h ⊢
      split at h
      · exact absurd rfl h
      · rename_i failure tree' hrun
        rw [hrun] at hgrows
        exact hgrows failure rfl

end CommandLine

/-- An import of an input that is at fault has the first fault for its error, and leaves the session as it
was, as if it had not been tried: what is committed, what is pending and what is held. And a command line
that fails leaves the committed records at every place of the file tree as they were. -/
theorem failure_changes_nothing :
    (∀ (settings : Settings) (ops : List Operation) (input : List UInt8) (e : ImportError),
      Import.readEvents input = .error e →
        Import.FirstFault input e ∧
        (Session.run settings ops).service.importEvents input = .error (.events e) ∧
        (Session.run settings ops).step (.importEvents input) = Session.run settings ops ∧
        ∀ after, Session.run settings (ops ++ .importEvents input :: after) =
          Session.run settings (ops ++ after)) ∧
    ∀ (environment : Environment) (now : Int64) (input : ByteArray) (words : List String) (tree : FileTree),
      (CommandLine.runOn environment now input words tree).1.code = 1 ∨
          (CommandLine.runOn environment now input words tree).1.code = 2 →
        ∀ place, (CommandLine.runOn environment now input words tree).2.recordsAt place =
          tree.recordsAt place := by
  constructor
  · intro settings ops input e hread
    have himport : ∀ service : Service, service.importEvents input = .error (.events e) := fun service => by
      rw [Service.importEvents, Service.readEvents, hread]
      rfl
    have hstep : (Session.run settings ops).step (.importEvents input) = Session.run settings ops := by
      rw [Session.step, himport]
    refine ⟨((Import.decides_readEvents input).error_iff e).1 hread, himport _, hstep, fun after => ?_⟩
    rw [Session.run_append, List.foldl_cons, hstep, ← Session.run_append]
  · intro environment now input words tree hcode place
    have hfailed : (CommandLine.runOn environment now input words tree).1.code ≠ 0 := by
      rcases hcode with hcode | hcode
      · rw [hcode]
        decide
      · rw [hcode]
        decide
    exact (CommandLine.growsTo_of_failed hfailed).recordsAt_eq place

/-- A store in which one event is committed, its removal is pending, and a snapshot is held. -/
def pendingRemoval : List Operation :=
  [.putEvent { Event.empty with identity := 7 } "7", .commit, .hold, .remove 7]

/-- A file tree with the index of one event in a data directory. -/
def oneEventTree : FileTree :=
  ⟨[], [(["data"], .directory []),
    (["index", "data"], .directory [[.put ⟨{ Event.empty with identity := 7 }, "7"⟩]])]⟩

/-- A second line that is no event, and a file that is missing. -/
theorem failure_changes_nothing_here :
    (Session.run .standard pendingRemoval).service.importEvents (Import.bytes "\nevent") =
        .error (.events (.notEvent 2 .malformed)) ∧
      (CommandLine.runOn (fun _ => some "/data") 0 .empty ["index", "missing"] oneEventTree).1.code = 1 ∧
      (CommandLine.runOn (fun _ => some "/data") 0 .empty ["index", "missing"] oneEventTree).2.recordsAt
        ["index", "data"] = oneEventTree.recordsAt ["index", "data"] := by
  have hread : Import.readEvents (Import.bytes "\nevent") = .error (.notEvent 2 .malformed) := by
    decide +kernel
  have hcode : (CommandLine.runOn (fun _ => some "/data") 0 .empty ["index", "missing"] oneEventTree).1.code =
      1 := by
    decide +kernel
  obtain ⟨-, himport, -⟩ := failure_changes_nothing.1 .standard pendingRemoval _ _ hread
  exact ⟨himport, hcode, failure_changes_nothing.2 _ _ _ _ _ (Or.inl hcode) _⟩

end EventFinder
