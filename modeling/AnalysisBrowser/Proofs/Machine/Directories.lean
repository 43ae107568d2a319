import AnalysisBrowser.Machine.Disk

/-!
# Disks that grow

On a proper disk everything lies in a directory. Making a directory or writing a file puts one thing
into a directory, so a disk keeps what it has: a path that leads somewhere leads there afterwards.

A path that leads nowhere can lead to something old once directories were made. It has to go up again
behind the first name that was missing, since below that name there was nothing.
-/
namespace AnalysisBrowser

section Refusals

variable {ε α β : Type}

/-- Steps in a row succeed if each of them does. -/
theorem ok_bind_iff {x : Except ε α} {f : α → Except ε β} {b : β} :
    (x >>= f) = .ok b ↔ ∃ a, x = .ok a ∧ f a = .ok b := by
  cases x with
  | ok a => simp [bind, Except.bind]
  | error e => simp [bind, Except.bind]

theorem ok_unit_bind_iff {x : Except ε Unit} {f : Unit → Except ε β} {b : β} :
    (x >>= f) = .ok b ↔ x = .ok () ∧ f () = .ok b := by
  rw [ok_bind_iff]
  exact ⟨fun ⟨_, first, second⟩ => ⟨first, second⟩, fun h => ⟨(), h⟩⟩

theorem throw_ne_ok {e : ε} {a : α} : (throw e : Except ε α) ≠ .ok a := nofun

theorem pure_eq_ok_iff {a b : α} : (pure a : Except ε α) = .ok b ↔ a = b :=
  ⟨Except.ok.inj, congrArg Except.ok⟩

end Refusals

namespace Disk

/-- The working directory is a directory, and so is what lies around any file or directory. -/
structure IsTree (d : Disk) : Prop where
  start : d.entry? d.workingDirectory = some .directory
  above : ∀ item ∈ d.entries, d.entry? item.1.tail = some .directory

instance (d : Disk) : Decidable d.IsTree :=
  decidable_of_iff
    ((∀ item ∈ d.entries, d.entry? item.1.tail = some .directory) ∧
      d.entry? d.workingDirectory = some .directory)
    ⟨fun h => ⟨h.2, h.1⟩, fun tree => ⟨tree.above, tree.start⟩⟩

theorem IsTree.directory_of_cons {d : Disk} (tree : d.IsTree) {name : String} {place : Place}
    (present : d.entry? (name :: place) ≠ none) : d.entry? place = some .directory := by
  have found := mt List.lookup_eq_none_iff.mpr present
  simp only [Classical.not_forall, bne_iff_ne, Classical.not_not] at found
  obtain ⟨item, mem, same⟩ := found
  have above := tree.above item mem
  rwa [← same] at above

theorem IsTree.present_of_append {d : Disk} (tree : d.IsTree) {front place : Place}
    (present : d.entry? (front ++ place) ≠ none) : d.entry? place ≠ none := by
  induction front with
  | nil => exact present
  | cons name front ih =>
    have around : d.entry? (front ++ place) = some .directory := tree.directory_of_cons present
    exact ih (around ▸ Option.some_ne_none _)

theorem entryAt_insert (d : Disk) (name : String) (parent : Place) (entry : Entry) (other : Place) :
    Disk.entry? (d.insert (name :: parent) entry) other =
      if other = name :: parent then some entry else d.entry? other := by
  cases other with
  | nil => rfl
  | cons first rest =>
    change List.lookup (first :: rest) ((name :: parent, entry) :: d.entries) = _
    rw [List.lookup_cons]
    by_cases same : first :: rest = name :: parent
    · simp [same]
    · rw [if_neg same, beq_eq_false_iff_ne.mpr same]
      rfl

/-- A later disk still has everything that a disk has. Files may have other bytes. -/
structure Keeps (d d' : Disk) : Prop where
  workingDirectory : d'.workingDirectory = d.workingDirectory
  directory {place : Place} : d.entry? place = some .directory → d'.entry? place = some .directory
  present {place : Place} : d.entry? place ≠ none → d'.entry? place ≠ none
  isTree : d.IsTree → d'.IsTree

/-- A later disk has nothing new but directories. -/
structure Grows (d d' : Disk) : Prop where
  workingDirectory : d'.workingDirectory = d.workingDirectory
  entry (place : Place) : d'.entry? place = d.entry? place ∨
    d.entry? place = none ∧ d'.entry? place = some .directory
  isTree : d.IsTree → d'.IsTree

theorem Keeps.refl (d : Disk) : d.Keeps d := ⟨rfl, id, id, id⟩

theorem Keeps.trans {d d' d'' : Disk} (first : d.Keeps d') (second : d'.Keeps d'') :
    d.Keeps d'' where
  workingDirectory := second.workingDirectory.trans first.workingDirectory
  directory there := second.directory (first.directory there)
  present there := second.present (first.present there)
  isTree tree := second.isTree (first.isTree tree)

theorem Grows.refl (d : Disk) : d.Grows d := ⟨rfl, fun _ => .inl rfl, id⟩

theorem Grows.trans {d d' d'' : Disk} (first : d.Grows d') (second : d'.Grows d'') :
    d.Grows d'' where
  workingDirectory := second.workingDirectory.trans first.workingDirectory
  entry place := by
    rcases second.entry place with same | ⟨free, made⟩
    · rw [same]
      exact first.entry place
    · rcases first.entry place with same | ⟨_, made'⟩
      · exact .inr ⟨same ▸ free, made⟩
      · rw [free] at made'
        cases made'
  isTree tree := second.isTree (first.isTree tree)

theorem Grows.keeps {d d' : Disk} (grows : d.Grows d') : d.Keeps d' where
  workingDirectory := grows.workingDirectory
  directory {place} there := by
    rcases grows.entry place with same | ⟨_, made⟩
    · rw [same, there]
    · exact made
  present {place} there := by
    rcases grows.entry place with same | ⟨free, _⟩
    · rwa [same]
    · exact absurd free there
  isTree := grows.isTree

theorem Grows.file?_eq {d d' : Disk} (grows : d.Grows d') (place : Place) :
    d'.file? place = d.file? place := by
  unfold file?
  rcases grows.entry place with same | ⟨free, made⟩
  · rw [same]
  · rw [free, made]

/-- What was there and is a directory now has been one before. -/
theorem Grows.directory_of_present {d d' : Disk} (grows : d.Grows d') {place : Place}
    (present : d.entry? place ≠ none) (there : d'.entry? place = some .directory) :
    d.entry? place = some .directory := by
  rcases grows.entry place with same | ⟨free, _⟩
  · rw [← same, there]
  · exact absurd free present

section Insert

variable {d : Disk} {name : String} {parent : Place}

/-- Something new in a directory, or other bytes for a file. -/
theorem Keeps.insert {entry : Entry} (inside : d.entry? parent = some .directory)
    (stays : d.entry? (name :: parent) = some .directory → entry = .directory) :
    d.Keeps (d.insert (name :: parent) entry) := by
  have directory : ∀ {place : Place}, d.entry? place = some .directory →
      Disk.entry? (d.insert (name :: parent) entry) place = some .directory := by
    intro place there
    rw [entryAt_insert]
    split
    · rename_i same
      rw [stays (same ▸ there)]
    · exact there
  refine ⟨rfl, directory, fun {place} there => ?_, fun tree => ⟨directory tree.start, ?_⟩⟩
  · rw [entryAt_insert]
    split
    · exact Option.some_ne_none _
    · exact there
  · intro item mem
    rcases List.mem_cons.mp mem with rfl | mem
    · exact directory inside
    · exact directory (tree.above item mem)

theorem Grows.insert (inside : d.entry? parent = some .directory)
    (free : d.entry? (name :: parent) = none) :
    d.Grows (d.insert (name :: parent) .directory) := by
  refine ⟨rfl, fun place => ?_, (Keeps.insert inside fun _ => rfl).isTree⟩
  rw [entryAt_insert]
  split
  · rename_i same
    exact .inr ⟨same ▸ free, rfl⟩
  · exact .inl rfl

theorem file?_insert (content : List UInt8) (place : Place) :
    (d.insert (name :: parent) (.file content)).file? place =
      if place = name :: parent then some content else d.file? place := by
  unfold file?
  rw [entryAt_insert]
  by_cases same : place = name :: parent
  · rw [if_pos same, if_pos same]
  · rw [if_neg same, if_neg same]

end Insert

theorem checkDirectory_eq_ok_iff {d : Disk} {place : Place} :
    d.checkDirectory place = .ok () ↔ d.entry? place = some .directory := by
  unfold checkDirectory
  split <;> simp_all

/-- A part of a path stays, goes up, or goes on to a name that is there. -/
theorem step_eq_ok_iff {d : Disk} {place next : Place} {part : String} :
    d.step place part = .ok next ↔ d.entry? place = some .directory ∧
      (part = "." ∧ next = place ∨ part = ".." ∧ next = place.tail ∨
        (part ≠ "." ∧ part ≠ "..") ∧ checkName part = .ok () ∧
          d.entry? (part :: place) ≠ none ∧ next = part :: place) := by
  unfold step
  rw [ok_unit_bind_iff, checkDirectory_eq_ok_iff]
  refine and_congr_right fun _ => ?_
  by_cases stays : part = "."
  · simp [stays, pure_eq_ok_iff, eq_comm (a := next)]
  by_cases up : part = ".."
  · simp [up, pure_eq_ok_iff, eq_comm (a := next)]
  rw [if_neg stays, if_neg up, ok_unit_bind_iff]
  cases d.entry? (part :: place) with
  | none => simp [stays, up, throw_ne_ok]
  | some e => simp [stays, up, pure_eq_ok_iff, eq_comm (a := next)]

theorem walk_cons_eq_ok_iff {d : Disk} {place found : Place} {part : String} {rest : List String} :
    d.walk place (part :: rest) = .ok found ↔
      ∃ next, d.step place part = .ok next ∧ d.walk next rest = .ok found := by
  rw [walk]
  cases d.step place part with
  | ok next => simp
  | error e => simp

theorem walk_append_eq_ok_iff {d : Disk} {place found : Place} {front rest : List String} :
    d.walk place (front ++ rest) = .ok found ↔
      ∃ next, d.walk place front = .ok next ∧ d.walk next rest = .ok found := by
  induction front generalizing place with
  | nil => simp [walk]
  | cons part front ih =>
    rw [List.cons_append, walk_cons_eq_ok_iff]
    simp only [walk_cons_eq_ok_iff, ih]
    constructor
    · rintro ⟨next, step, middle, walked, onward⟩
      exact ⟨middle, ⟨next, step, walked⟩, onward⟩
    · rintro ⟨middle, ⟨next, step, walked⟩, onward⟩
      exact ⟨next, step, middle, walked, onward⟩

theorem Keeps.walk {d d' : Disk} (keeps : d.Keeps d') {place found : Place} {parts : List String}
    (walked : d.walk place parts = .ok found) : d'.walk place parts = .ok found := by
  induction parts generalizing place with
  | nil => exact walked
  | cons part rest ih =>
    obtain ⟨next, step, onward⟩ := walk_cons_eq_ok_iff.mp walked
    refine walk_cons_eq_ok_iff.mpr ⟨next, ?_, ih onward⟩
    obtain ⟨there, taken⟩ := step_eq_ok_iff.mp step
    refine step_eq_ok_iff.mpr ⟨keeps.directory there, ?_⟩
    rcases taken with stays | up | ⟨name, short, present, same⟩
    · exact .inl stays
    · exact .inr (.inl up)
    · exact .inr (.inr ⟨name, short, keeps.present present, same⟩)

theorem start_eq {d d' : Disk} (same : d'.workingDirectory = d.workingDirectory) (path : String) :
    d'.start path = d.start path := by
  unfold start
  rw [same]

theorem locate_eq_ok_iff {d : Disk} {path : String} {place : Place} :
    d.locate path = .ok place ↔
      checkPath path = .ok () ∧ d.walk (d.start path) (Location.steps path) = .ok place := by
  unfold locate
  exact ok_unit_bind_iff

/-- A path that leads somewhere still leads there. -/
theorem Keeps.locate {d d' : Disk} (keeps : d.Keeps d') {path : String} {place : Place}
    (located : d.locate path = .ok place) : d'.locate path = .ok place := by
  obtain ⟨checked, walked⟩ := locate_eq_ok_iff.mp located
  refine locate_eq_ok_iff.mpr ⟨checked, ?_⟩
  rw [start_eq keeps.workingDirectory]
  exact keeps.walk walked

theorem isPresent_iff {d : Disk} {path : String} :
    d.isPresent path = true ↔ ∃ place, d.locate path = .ok place := by
  unfold isPresent
  cases d.locate path with
  | ok place => simp [Except.isOk, Except.toBool]
  | error e => simp [Except.isOk, Except.toBool]

theorem Keeps.isPresent {d d' : Disk} (keeps : d.Keeps d') {path : String}
    (present : d.isPresent path = true) : d'.isPresent path = true := by
  obtain ⟨place, located⟩ := isPresent_iff.mp present
  exact isPresent_iff.mpr ⟨place, keeps.locate located⟩

/-- The last part of a path is a name of its own, and the parts in front of it lead to a
directory. -/
structure SlotAt (d : Disk) (path : String) (front : List String) (name : String)
    (parent : Place) : Prop where
  parts : Location.parts path = front ++ [name]
  checked : checkPath path = .ok ()
  walked : d.walk (d.start path) front = .ok parent
  inside : d.entry? parent = some .directory
  own : name ≠ "." ∧ name ≠ ".."

theorem Keeps.slotAt {d d' : Disk} (keeps : d.Keeps d') {path : String} {front : List String}
    {name : String} {parent : Place} (slot : d.SlotAt path front name parent) :
    d'.SlotAt path front name parent where
  parts := slot.parts
  checked := slot.checked
  walked := start_eq keeps.workingDirectory path ▸ keeps.walk slot.walked
  inside := keeps.directory slot.inside
  own := slot.own

/-- A path leads to its slot if something is there. -/
theorem SlotAt.locate {d : Disk} {path : String} {front : List String} {name : String}
    {parent : Place} (slot : d.SlotAt path front name parent)
    (bare : Location.endsInSlash path = false) (short : checkName name = .ok ())
    (present : d.entry? (name :: parent) ≠ none) : d.locate path = .ok (name :: parent) := by
  have steps : Location.steps path = front ++ [name] := by
    unfold Location.steps
    rw [bare, slot.parts]
    rfl
  have last : d.step parent name = .ok (name :: parent) :=
    step_eq_ok_iff.mpr ⟨slot.inside, .inr (.inr ⟨slot.own, short, present, rfl⟩)⟩
  refine locate_eq_ok_iff.mpr ⟨slot.checked, ?_⟩
  rw [steps]
  exact walk_append_eq_ok_iff.mpr
    ⟨parent, slot.walked, walk_cons_eq_ok_iff.mpr ⟨name :: parent, last, rfl⟩⟩

theorem exists_slotAt {d : Disk} {path : String} {unnamed : FileError} {place : Place}
    (found : d.slot path unnamed = .ok place) :
    ∃ front name parent, place = name :: parent ∧ d.SlotAt path front name parent := by
  unfold slot at found
  obtain ⟨checked, found⟩ := ok_unit_bind_iff.mp found
  dsimp only at found
  split at found
  · cases found
  rename_i name last
  obtain ⟨front, parts⟩ := List.getLast?_eq_some_iff.mp last
  rw [parts, List.dropLast_concat] at found
  obtain ⟨parent, walked, found⟩ := ok_bind_iff.mp found
  obtain ⟨inside, found⟩ := ok_unit_bind_iff.mp found
  split at found
  · cases found
  rename_i own
  simp only [Bool.or_eq_true, decide_eq_true_eq, not_or] at own
  have same := pure_eq_ok_iff.mp found
  exact ⟨front, name, parent, same.symm,
    parts, checked, walked, checkDirectory_eq_ok_iff.mp inside, own⟩

/-- A new directory is put where nothing is. -/
theorem makeDirectory_eq_ok {d d' : Disk} {path : String} (made : d.makeDirectory path = .ok d') :
    ∃ front name parent, d.SlotAt path front name parent ∧ d.entry? (name :: parent) = none ∧
      d' = d.insert (name :: parent) .directory := by
  unfold makeDirectory at made
  obtain ⟨place, found, made⟩ := ok_bind_iff.mp made
  obtain ⟨front, name, parent, rfl, slot⟩ := exists_slotAt found
  obtain ⟨_, made⟩ := ok_unit_bind_iff.mp made
  split at made
  · cases made
  rename_i free
  exact ⟨front, name, parent, slot, free, (pure_eq_ok_iff.mp made).symm⟩

/-- A file is put where no directory is. -/
theorem write_eq_ok {d d' : Disk} {path : String} {content : List UInt8}
    (written : d.write path content = .ok d') :
    ∃ front name parent, d.SlotAt path front name parent ∧ Location.endsInSlash path = false ∧
      checkName name = .ok () ∧ d.entry? (name :: parent) ≠ some .directory ∧
      d' = d.insert (name :: parent) (.file content) := by
  unfold write at written
  obtain ⟨place, found, written⟩ := ok_bind_iff.mp written
  obtain ⟨front, name, parent, rfl, slot⟩ := exists_slotAt found
  dsimp only at written
  split at written
  · cases written
  rename_i open'
  obtain ⟨short, written⟩ := ok_unit_bind_iff.mp written
  split at written
  · cases written
  rename_i other
  exact ⟨front, name, parent, slot, Bool.eq_false_iff.mpr open', short, other,
    (pure_eq_ok_iff.mp written).symm⟩

theorem Grows.makeDirectory {d d' : Disk} {path : String} (made : d.makeDirectory path = .ok d') :
    d.Grows d' := by
  obtain ⟨front, name, parent, slot, free, rfl⟩ := makeDirectory_eq_ok made
  exact .insert slot.inside free

theorem Keeps.write {d d' : Disk} {path : String} {content : List UInt8}
    (written : d.write path content = .ok d') : d.Keeps d' := by
  obtain ⟨front, name, parent, slot, _, _, other, rfl⟩ := write_eq_ok written
  exact .insert slot.inside fun there => absurd there other

/-- Behind a name that is not there a path goes up again. -/
def ClimbsOut (d : Disk) (path : String) : Prop :=
  ∃ before name after place, Location.parts path = before ++ name :: after ∧
    d.walk (d.start path) before = .ok place ∧ d.entry? (name :: place) = none ∧
    (name ≠ "." ∧ name ≠ "..") ∧ ".." ∈ after

theorem not_climbsOut {d : Disk} {path : String} (down : ".." ∉ Location.parts path) :
    ¬d.ClimbsOut path := by
  rintro ⟨before, name, after, place, parts, _, _, _, up⟩
  rw [parts] at down
  exact down (List.mem_append_right _ (List.mem_cons_of_mem _ up))

/-- Without going up, a walk ends below where it starts. -/
theorem exists_below_of_walk {d : Disk} {place found : Place} {parts : List String}
    (walked : d.walk place parts = .ok found) (down : ".." ∉ parts) :
    ∃ front, found = front ++ place := by
  induction parts generalizing place with
  | nil => exact ⟨[], (Except.ok.inj walked).symm⟩
  | cons part rest ih =>
    obtain ⟨next, step, onward⟩ := walk_cons_eq_ok_iff.mp walked
    obtain ⟨front, below⟩ := ih onward fun mem => down (List.mem_cons_of_mem _ mem)
    obtain ⟨_, ⟨_, rfl⟩ | ⟨up, _⟩ | ⟨_, _, _, rfl⟩⟩ := step_eq_ok_iff.mp step
    · exact ⟨front, below⟩
    · exact absurd (up ▸ List.mem_cons_self) down
    · exact ⟨front ++ [part], by rw [below, List.append_assoc]; rfl⟩

/-- A part that leads on over a disk that has grown leads on over the old one, or it is a name that
is missing there. -/
theorem step_or_missing {d d' : Disk} (tree : d.IsTree) (grows : d.Grows d') {place next : Place}
    {part : String} (present : d.entry? place ≠ none) (step : d'.step place part = .ok next) :
    (d.step place part = .ok next ∧ d.entry? next ≠ none) ∨
      d.entry? (part :: place) = none ∧ (part ≠ "." ∧ part ≠ "..") ∧ next = part :: place := by
  obtain ⟨there', taken⟩ := step_eq_ok_iff.mp step
  have there := grows.directory_of_present present there'
  rcases taken with ⟨stays, rfl⟩ | ⟨up, rfl⟩ | ⟨name, short, _, rfl⟩
  · exact .inl ⟨step_eq_ok_iff.mpr ⟨there, .inl ⟨stays, rfl⟩⟩, present⟩
  · refine .inl ⟨step_eq_ok_iff.mpr ⟨there, .inr (.inl ⟨up, rfl⟩)⟩, ?_⟩
    cases place with
    | nil => exact present
    | cons first outer => exact tree.directory_of_cons present ▸ Option.some_ne_none _
  · by_cases free : d.entry? (part :: place) = none
    · exact .inr ⟨free, name, rfl⟩
    · exact .inl ⟨step_eq_ok_iff.mpr ⟨there, .inr (.inr ⟨name, short, free, rfl⟩)⟩, free⟩

/-- A walk over a disk that has grown leads the same way on the old one, up to the first name that
is missing there. -/
theorem walk_or_missing {d d' : Disk} (tree : d.IsTree) (grows : d.Grows d') {place found : Place}
    {parts : List String} (present : d.entry? place ≠ none)
    (walked : d'.walk place parts = .ok found) :
    d.walk place parts = .ok found ∨
      ∃ before name after next, parts = before ++ name :: after ∧
        d.walk place before = .ok next ∧ d.entry? (name :: next) = none ∧
        (name ≠ "." ∧ name ≠ "..") ∧ d'.walk (name :: next) after = .ok found := by
  induction parts generalizing place with
  | nil => exact .inl walked
  | cons part rest ih =>
    obtain ⟨next, step, onward⟩ := walk_cons_eq_ok_iff.mp walked
    rcases step_or_missing tree grows present step with ⟨step, present'⟩ | ⟨free, name, rfl⟩
    · rcases ih present' onward with walked | ⟨before, name, after, last, rfl, walked, missing⟩
      · exact .inl (walk_cons_eq_ok_iff.mpr ⟨next, step, walked⟩)
      · refine .inr ⟨part :: before, name, after, last, rfl, ?_, missing⟩
        exact walk_cons_eq_ok_iff.mpr ⟨next, step, walked⟩
    · exact .inr ⟨[], part, rest, place, rfl, rfl, free, name, onward⟩

/-- A path that led nowhere and now leads to a slot in which there was something before climbs out
of a missing directory. -/
theorem climbsOut_of_slotAt {d d' : Disk} (tree : d.IsTree) (grows : d.Grows d') {path : String}
    {front : List String} {name : String} {parent : Place}
    (slot : d'.SlotAt path front name parent) (bare : Location.endsInSlash path = false)
    (short : checkName name = .ok ()) (absent : d.isPresent path = false)
    (present : d.entry? (name :: parent) ≠ none) : d.ClimbsOut path := by
  have started : d.entry? (d.start path) ≠ none := by
    unfold start
    split
    · exact Option.some_ne_none _
    · exact tree.start ▸ Option.some_ne_none _
  have walked := slot.walked
  rw [start_eq grows.workingDirectory] at walked
  rcases walk_or_missing tree grows started walked with
    walked | ⟨before, missing, after, next, rfl, walked, free, own, onward⟩
  · -- The path leads to its slot in the old disk already.
    have old : d.SlotAt path front name parent :=
      ⟨slot.parts, slot.checked, walked, tree.directory_of_cons present, slot.own⟩
    rw [isPresent_iff.mpr ⟨name :: parent, old.locate bare short present⟩] at absent
    cases absent
  · have parts : Location.parts path = before ++ missing :: (after ++ [name]) := by
      rw [slot.parts, List.append_assoc, List.cons_append]
    refine ⟨before, missing, after ++ [name], next, parts, walked, free, own, ?_⟩
    by_cases up : ".." ∈ after
    · exact List.mem_append_left _ up
    · -- Without going up the slot would lie below a name that was not there.
      obtain ⟨below, rfl⟩ := exists_below_of_walk onward up
      have deeper : d.entry? ((name :: below) ++ missing :: next) ≠ none := present
      exact absurd free (tree.present_of_append deeper)

/-- A path leads to a file with new bytes, and every other file is as it was. The file is new itself
unless the path climbed out of a missing directory. -/
structure Gains (d d' : Disk) (path : String) (content : List UInt8) (place : Place) : Prop where
  located : d'.locate path = .ok place
  written : d'.file? place = some content
  others {other : Place} : other ≠ place → d'.file? other = d.file? other
  isNew : ¬d.ClimbsOut path → d.entry? place = none

/-- What writing to a path brings that led nowhere before directories were made. -/
theorem exists_gains_of_write {d d' d'' : Disk} (tree : d.IsTree) (grows : d.Grows d')
    {path : String} {content : List UInt8} (absent : d.isPresent path = false)
    (written : d'.write path content = .ok d'') : ∃ place, d.Gains d'' path content place := by
  have keeps := Keeps.write written
  obtain ⟨front, name, parent, slot, bare, short, _, rfl⟩ := write_eq_ok written
  have there : Disk.entry? (d'.insert (name :: parent) (.file content)) (name :: parent) =
      some (.file content) := by
    rw [entryAt_insert, if_pos rfl]
  refine ⟨name :: parent, ?_, ?_, ?_, ?_⟩
  · exact (keeps.slotAt slot).locate bare short (there ▸ Option.some_ne_none _)
  · rw [file?_insert, if_pos rfl]
  · intro other ne
    rw [file?_insert, if_neg ne, grows.file?_eq]
  · intro stays
    by_cases free : d.entry? (name :: parent) = none
    · exact free
    · exact absurd (climbsOut_of_slotAt tree grows slot bare short absent free) stays

end Disk

end AnalysisBrowser
