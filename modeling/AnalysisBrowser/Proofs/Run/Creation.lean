import AnalysisBrowser.Run.Outcome
import AnalysisBrowser.Proofs.Machine.Trace
import AnalysisBrowser.Proofs.Run.Looks

/-!
# Files that runs leave alone

A run changes files only by making a new configuration, and then it changes one: the file at the path
that was asked for has the bytes of the template. Where that path leads to something, nothing changes.

Whether it does is asked before missing directories are made. A path that goes up again out of a
missing directory leads nowhere at that time and may lead to an old file afterwards, which is then
replaced. No other path can harm a file, in any sequence of command lines.
-/
namespace AnalysisBrowser

open Program (asksOnly_query)

theorem Program.on_liftBind {α β ε : Type} (p : Program α) (f : α → ExceptT ε Program β)
    (m : Machine) :
    ((liftM p : ExceptT ε Program α) >>= f).run.on m = (f (p.on m).1).run.on (p.on m).2 := by
  have lifted : (liftM p : ExceptT ε Program α).run.on m = (.ok (p.on m).1, (p.on m).2) :=
    Program.on_bind p (fun a => .done (Except.ok a)) m
  rw [Program.on_exceptBind, lifted]

theorem Run.on_ofExcept_bind {α β ε : Type} (failure : ε → RunError) (result : Except ε α)
    (f : α → Run β) (m : Machine) :
    (ofExcept failure result >>= f).run.on m =
      match result with
      | .ok a => (f a).run.on m
      | .error e => (.error (failure e), m) := by
  cases result with
  | ok a => rfl
  | error e => rfl

/-- The path that a new configuration is to have, if there is one. -/
def InitTarget.pathOn (m : Machine) : InitTarget → Option String
  | .path output => some output
  | .user => m.userConfig

theorem initPath_on (target : InitTarget) (m : Machine) :
    (initPath target).run.on m =
      match target.pathOn m with
      | some path => (.ok path, m)
      | none => (.error .noUserConfig, m) := by
  cases target with
  | path output => rfl
  | user =>
    obtain ⟨disk, userConfig, link, seen, notes⟩ := m
    cases userConfig with
    | some path => rfl
    | none => rfl

theorem sparesFiles_ensureDirectory (path : String) :
    (ensureDirectory path).AsksOnly Query.SparesFiles := by
  refine .bind (asksOnly_query trivial) fun answer => ?_
  cases answer with
  | ok u => trivial
  | error e =>
    refine .bind (asksOnly_query trivial) fun there => ?_
    cases there with
    | true => trivial
    | false => trivial

theorem sparesFiles_makeDirectories (absolute : Bool) (components : List String) :
    (makeDirectories absolute components).AsksOnly Query.SparesFiles := by
  induction components with
  | nil => trivial
  | cons name above ih =>
    unfold makeDirectories
    refine .bind (asksOnly_query trivial) fun answer => ?_
    split
    · trivial
    · refine .bind ih fun made => ?_
      cases made with
      | ok u => exact sparesFiles_ensureDirectory _
      | error e => trivial
    · refine .bind (asksOnly_query trivial) fun there => ?_
      cases there with
      | true => trivial
      | false => trivial

theorem sparesFiles_makeAbove (path : String) :
    (makeAbove path).AsksOnly Query.SparesFiles := by
  unfold makeAbove
  dsimp only
  split
  · trivial
  · exact sparesFiles_makeDirectories _ _

/-- The steps of making a configuration, with the place where each of them fails. -/
theorem runInit_on (target : InitTarget) (m : Machine) :
    (runInit target).run.on m =
      match target.pathOn m with
      | none => (.error .noUserConfig, m)
      | some path =>
        if m.disk.isPresent path then (.error (.occupied path), m)
        else
          match (makeAbove path).on m with
          | (.error e, m') => (.error (.directoryRefused e), m')
          | (.ok _, m') =>
            match m'.disk.write path (Text.toUtf8 configTemplate) with
            | .error e => (.error (.writeRefused e), m')
            | .ok disk => (.ok ⟨.page (createdPage path), true⟩, { m' with disk }) := by
  unfold runInit
  rw [Program.on_exceptBind, initPath_on]
  cases target.pathOn m with
  | none => rfl
  | some path =>
    have asked : (Program.query (.isPresent path)).on m = (m.disk.isPresent path, m) := rfl
    dsimp only
    rw [Program.on_liftBind, asked]
    dsimp only
    split
    · rfl
    rw [Program.on_liftBind, Run.on_ofExcept_bind]
    obtain ⟨result, m'⟩ := (makeAbove path).on m
    cases result with
    | error e => rfl
    | ok u =>
      have wrote : (Program.query (.write path (Text.toUtf8 configTemplate))).on m' =
          m'.change (m'.disk.write path (Text.toUtf8 configTemplate)) := rfl
      dsimp only
      rw [Program.on_liftBind, Run.on_ofExcept_bind, wrote]
      cases m'.disk.write path (Text.toUtf8 configTemplate) with
      | ok disk => rfl
      | error e => rfl

/-- Making a configuration fails and leaves all files as they are, or it gives one file the template.
It fails at once where something is. -/
theorem runInit_cases {target : InitTarget} {m m' : Machine} {result : Except RunError Report}
    (tree : m.disk.IsTree) (run : (runInit target).run.on m = (result, m')) :
    (∃ e, result = .error e ∧ m.disk.Grows m'.disk ∧
      ∀ path, target.pathOn m = some path → m.disk.isPresent path = true → m' = m) ∨
    ∃ path place, result = .ok ⟨.page (createdPage path), true⟩ ∧
      target.pathOn m = some path ∧ m.disk.isPresent path = false ∧
      m.disk.Gains m'.disk path (Text.toUtf8 configTemplate) place := by
  rw [runInit_on] at run
  cases asked : target.pathOn m with
  | none =>
    rw [asked] at run
    cases run
    exact .inl ⟨.noUserConfig, rfl, .refl m.disk, nofun⟩
  | some path =>
    rw [asked] at run
    dsimp only at run
    split at run
    · cases run
      exact .inl ⟨.occupied path, rfl, .refl m.disk, fun _ _ _ => rfl⟩
    rename_i absent
    have refused : ∀ path', some path = some path' → m.disk.isPresent path' = true → m' = m := by
      intro path' same present
      cases same
      exact absurd present absent
    have grows : m.disk.Grows ((makeAbove path).on m).2.disk :=
      Program.grows_on (sparesFiles_makeAbove path) m
    rcases made : (makeAbove path).on m with ⟨answer, between⟩
    rw [made] at run grows
    cases answer with
    | error e =>
      cases run
      exact .inl ⟨.directoryRefused e, rfl, grows, refused⟩
    | ok u =>
      dsimp only at run grows
      cases written : between.disk.write path (Text.toUtf8 configTemplate) with
      | error e =>
        rw [written] at run
        cases run
        exact .inl ⟨.writeRefused e, rfl, grows, refused⟩
      | ok disk =>
        rw [written] at run
        cases run
        have absent := Bool.not_eq_true _ ▸ absent
        obtain ⟨place, gains⟩ := Disk.exists_gains_of_write tree grows absent written
        exact .inr ⟨path, place, rfl, rfl, absent, gains⟩

/-- What an invocation may do to the files of a machine. -/
structure Invocation.SparesFiles (i : Invocation) (m : Machine) : Prop where
  /-- Only a new configuration changes a file. -/
  unchanged : (∀ target, i.command = .init target → (i.on m).1.exit ≠ 0) →
    ∀ place, (i.on m).2.disk.file? place = m.disk.file? place
  /-- A new configuration changes one file, and it has the bytes of the template. -/
  created {target : InitTarget} : i.command = .init target → (i.on m).1.exit = 0 →
    ∃ path place, target.pathOn m = some path ∧
      m.disk.Gains (i.on m).2.disk path (Text.toUtf8 configTemplate) place
  /-- No configuration is made where something is. -/
  refused {target : InitTarget} {path : String} : i.command = .init target →
    target.pathOn m = some path → m.disk.isPresent path = true →
    (i.on m).1.exit = 2 ∧ (i.on m).2.disk = m.disk

theorem InitTarget.pathOn_cleared (target : InitTarget) (m : Machine) :
    target.pathOn m.cleared = target.pathOn m := by
  cases target with
  | path output => rfl
  | user => rfl

/-- The two ways in which making a configuration ends. -/
theorem Invocation.init_cases {i : Invocation} {target : InitTarget} {m : Machine}
    (init : i.command = .init target) (tree : m.disk.IsTree) :
    ((i.on m).1.exit = 2 ∧ m.disk.Grows (i.on m).2.disk ∧
      ∀ path, target.pathOn m = some path → m.disk.isPresent path = true →
        (i.on m).2.disk = m.disk) ∨
    (i.on m).1.exit = 0 ∧ ∃ path place, target.pathOn m = some path ∧
      m.disk.isPresent path = false ∧
      m.disk.Gains (i.on m).2.disk path (Text.toUtf8 configTemplate) place := by
  obtain ⟨verbosity, command⟩ := i
  cases init
  rw [← target.pathOn_cleared]
  rcases @runInit_cases target m.cleared _ _ tree rfl with
    ⟨e, failed, grows, refused⟩ | ⟨path, place, made, asked, absent, gains⟩
  · refine .inl ⟨congrArg exitCode failed, grows, fun path asked present => ?_⟩
    have same := congrArg Machine.disk (refused path asked present)
    exact same
  · exact .inr ⟨congrArg exitCode made, path, place, asked, absent, gains⟩

theorem Invocation.sparesFiles (i : Invocation) {m : Machine} (tree : m.disk.IsTree) :
    i.SparesFiles m where
  unchanged other := by
    by_cases init : ∃ target, i.command = .init target
    · obtain ⟨target, init⟩ := init
      rcases init_cases init tree with ⟨_, grows, _⟩ | ⟨exit, _⟩
      · exact grows.file?_eq
      · exact absurd exit (other target init)
    · have looks := Command.looks_run fun target init' => init ⟨target, init'⟩
      have same : (i.on m).2.disk = m.disk := Program.disk_on looks m.cleared
      intro place
      rw [same]
  created init exit := by
    rcases init_cases init tree with ⟨exit', _⟩ | ⟨_, path, place, asked, _, gains⟩
    · rw [exit] at exit'
      cases exit'
    · exact ⟨path, place, asked, gains⟩
  refused init asked present := by
    rcases init_cases init tree with ⟨exit, _, same⟩ | ⟨_, path, place, asked', absent, _⟩
    · exact ⟨exit, same _ asked present⟩
    · rw [asked] at asked'
      cases asked'
      rw [present] at absent
      cases absent

namespace Machine

/-- A machine after a command line. A line that is refused changes nothing. -/
def obey (m : Machine) (words : List String) : Machine :=
  match Invocation.ofWords words with
  | .ok i => (i.on m).2
  | .error _ => m

/-- A machine after one command line after another. -/
def obeyAll (m : Machine) (lines : List (List String)) : Machine := lines.foldl obey m

theorem obeyAll_append (m : Machine) (before after : List (List String)) :
    m.obeyAll (before ++ after) = (m.obeyAll before).obeyAll after :=
  List.foldl_append

/-- A command line replaces what is at a place: it makes a new configuration there, along a path that
climbs out of a missing directory. -/
def Replaces (m : Machine) (words : List String) (place : Place) : Prop :=
  ∃ i target path, Invocation.ofWords words = .ok i ∧ i.command = .init target ∧
    target.pathOn m = some path ∧ m.disk.ClimbsOut path ∧
    (m.obey words).disk.locate path = .ok place

theorem keeps_obey (m : Machine) (words : List String) : m.disk.Keeps (m.obey words).disk := by
  unfold obey
  split
  · rename_i i _
    exact Program.keeps_on i.command.run.run m.cleared
  · exact .refl m.disk

theorem keeps_obeyAll (m : Machine) (lines : List (List String)) :
    m.disk.Keeps (m.obeyAll lines).disk := by
  induction lines generalizing m with
  | nil => exact .refl m.disk
  | cons words rest ih => exact (m.keeps_obey words).trans (ih (m.obey words))

/-- One command line keeps the bytes of a file, unless it replaces the file. -/
theorem file?_obey {m : Machine} (tree : m.disk.IsTree) (words : List String) {place : Place}
    (there : m.disk.file? place ≠ none) :
    (m.obey words).disk.file? place = m.disk.file? place ∨ m.Replaces words place := by
  cases read : Invocation.ofWords words with
  | error e =>
    have same : m.obey words = m := by simp only [obey, read]
    exact .inl (by rw [same])
  | ok i =>
    have after : m.obey words = (i.on m).2 := by simp only [obey, read]
    have spares := i.sparesFiles tree
    rw [after]
    by_cases init : ∃ target, i.command = .init target ∧ (i.on m).1.exit = 0
    · obtain ⟨target, init, exit⟩ := init
      obtain ⟨path, place', asked, gains⟩ := spares.created init exit
      by_cases same : place = place'
      · cases same
        by_cases climbs : m.disk.ClimbsOut path
        · exact .inr ⟨i, target, path, read, init, asked, climbs, after ▸ gains.located⟩
        · have free := gains.isNew climbs
          exact absurd (by unfold Disk.file?; rw [free]) there
      · exact .inl (gains.others same)
    · exact .inl (spares.unchanged (fun target init' exit => init ⟨target, init', exit⟩) place)

theorem file?_obeyAll {m : Machine} (tree : m.disk.IsTree) (lines : List (List String))
    {place : Place} (there : m.disk.file? place ≠ none) :
    (m.obeyAll lines).disk.file? place = m.disk.file? place ∨
      ∃ before words after, lines = before ++ words :: after ∧
        (m.obeyAll before).Replaces words place := by
  induction lines generalizing m with
  | nil => exact .inl rfl
  | cons words rest ih =>
    have tree' := (m.keeps_obey words).isTree tree
    rcases file?_obey tree words there with same | replaces
    · rcases ih tree' (same ▸ there) with same' | ⟨before, words', after, rfl, replaces⟩
      · exact .inl (same'.trans same)
      · exact .inr ⟨words :: before, words', after, rfl, replaces⟩
    · exact .inr ⟨[], words, rest, rfl, replaces⟩

end Machine

/-- No run harms a file. A file keeps its bytes over any command lines, unless one of them makes a
new configuration in its place along a path that climbs out of a missing directory. What comes next
changes a file only as a new configuration, which is one file with the template at the path that was
asked for. Nothing changes where something is, or was at any time before. -/
theorem commandLines_spareFiles (m : Machine) (tree : m.disk.IsTree) (lines : List (List String)) :
    (∀ place content, m.disk.file? place = some content →
      (m.obeyAll lines).disk.file? place = some content ∨
        ∃ before words after, lines = before ++ words :: after ∧
          (m.obeyAll before).Replaces words place) ∧
    (∀ i : Invocation, i.SparesFiles (m.obeyAll lines)) ∧
    ∀ before after path, lines = before ++ after → (m.obeyAll before).disk.isPresent path = true →
      ∀ (i : Invocation) (target : InitTarget), i.command = .init target →
        target.pathOn (m.obeyAll lines) = some path →
        (i.on (m.obeyAll lines)).1.exit = 2 ∧
          (i.on (m.obeyAll lines)).2.disk = (m.obeyAll lines).disk := by
  have spares : ∀ i : Invocation, i.SparesFiles (m.obeyAll lines) :=
    fun i => i.sparesFiles ((m.keeps_obeyAll lines).isTree tree)
  refine ⟨fun place content there => ?_, spares, ?_⟩
  · have found : m.disk.file? place ≠ none := there ▸ Option.some_ne_none _
    rcases Machine.file?_obeyAll tree lines found with same | replaced
    · exact .inl (same.trans there)
    · exact .inr replaced
  · rintro before after path rfl present i target init asked
    refine (spares i).refused init asked ?_
    rw [Machine.obeyAll_append]
    exact ((m.obeyAll before).keeps_obeyAll after).isPresent present

/-- The bytes of an old file. -/
def oldBytes : List UInt8 := Text.toUtf8 "old\n"

/-- A machine with one file. -/
def oneFile : Machine where
  disk := ⟨[(["g"], .file oldBytes)], []⟩
  userConfig := none
  link := .down "-"
  seen := []
  notes := []

theorem commandLines_spareFiles_oneFile :
    oneFile.disk.IsTree ∧ oneFile.disk.file? ["g"] = some oldBytes ∧
    (oneFile.obeyAll [["init", "-o", "n/g"]]).disk.file? ["g"] = some oldBytes ∧
    ((⟨0, .init (.path "n/g")⟩ : Invocation).on (oneFile.obeyAll [["init", "-o", "n/g"]])).1.exit
      = 2 := by
  have tree : oneFile.disk.IsTree := by decide
  have there : oneFile.disk.file? ["g"] = some oldBytes := by decide +kernel
  have present : (oneFile.obeyAll [["init", "-o", "n/g"]]).disk.isPresent "n/g" = true := by
    decide +kernel
  have read : Invocation.ofWords ["init", "-o", "n/g"] = .ok ⟨0, .init (.path "n/g")⟩ := by
    rfl
  have spares := commandLines_spareFiles oneFile tree [["init", "-o", "n/g"]]
  refine ⟨tree, there, ?_, ?_⟩
  · rcases spares.1 ["g"] oldBytes there with same | ⟨before, words, after, lines, replaces⟩
    · exact same
    · -- The only line goes to a path on which nothing goes up.
      have down : ".." ∉ Location.parts "n/g" := by decide +kernel
      have mem : words ∈ [["init", "-o", "n/g"]] := lines ▸ by simp
      cases List.mem_singleton.mp mem
      obtain ⟨i, target, path, read', init, asked, climbs, _⟩ := replaces
      cases read.symm.trans read'
      cases init
      cases asked
      exact absurd climbs (Disk.not_climbsOut down)
  · exact (spares.2.2 [["init", "-o", "n/g"]] [] "n/g" rfl present _ _ rfl rfl).1

/-- Going up out of a missing directory, a new configuration takes the place of an old file. -/
theorem obey_replaces_oneFile :
    oneFile.disk.IsTree ∧ oneFile.disk.file? ["g"] = some oldBytes ∧
    (oneFile.obey ["init", "-o", "x/../g"]).disk.file? ["g"] ≠ some oldBytes := by
  decide +kernel

end AnalysisBrowser
