import AnalysisBrowser.Json.Decoder

/-!
# Records with a tag inside

A tagged record names its variant in a member that may stand anywhere among the others, or as the
first item of an array. Everything else is kept until the variant is known. By then the text has
been left behind, so faults of the kept content have no place.
-/
namespace AnalysisBrowser.Json

/-- What a tagged record holds besides its tag. -/
inductive Content where
  | members (members : List (String × Doc))
  | items (items : List Doc)

namespace Tagged

/-- The name of a variant. -/
def tagText (d : Doc) : Except Fault (String × Position) :=
  match d with
  | .scalar _ stop (.string s none) => .ok (s, stop)
  | d => .error (d.mismatch .variantName)

/-- The variant that a document names. -/
def tagOf {τ : Type} (variants : List (String × τ)) (d : Doc) : Except Fault τ :=
  match tagText d with
  | .error fault => .error fault
  | .ok (name, stop) => Decoder.variantOf variants name stop

/-- Collects the members of an object and finds the tag among them. -/
def collectMembers {τ : Type} (tag : String) (variants : List (String × τ)) (levels : Nat) :
    Option τ → List (String × Doc) → Members → Except Fault (τ × Content)
  | found, kept, .done stop =>
    match found with
    | none => .error ((Cause.missingField tag).at stop)
    | some t => .ok (t, .members kept.reverse)
  | _, _, .broken broke _ => .error broke.read
  | found, _, .bare key broke =>
    match key.flaw with
    | some fault => .error fault
    | none =>
      if key.text = tag && found.isSome then .error ((Cause.duplicateField tag).at key.next)
      else .error broke.read
  | found, kept, .member key value _ rest =>
    match key.flaw with
    | some fault => .error fault
    | none =>
      if key.text = tag then
        if found.isSome then .error ((Cause.duplicateField tag).at key.next)
        else
          match tagOf variants value with
          | .error fault => .error fault
          | .ok t => collectMembers tag variants levels (some t) kept rest
      else
        match Decoder.checkDoc levels value with
        | .error fault => .error fault
        | .ok () => collectMembers tag variants levels found ((key.text, value) :: kept) rest
  | found, _, .lost key value =>
    match key.flaw with
    | some fault => .error fault
    | none =>
      if key.text = tag then
        if found.isSome then .error ((Cause.duplicateField tag).at key.next)
        else (tagOf variants value).map fun t => (t, .members [])
      else
        match Decoder.checkDoc levels value with
        | .error fault => .error fault
        | .ok () => .error (value.mismatch .map)

/-- The items of an array, each checked. -/
def collectItems (levels : Nat) : Items → Except Fault (List Doc)
  | .done _ => .ok []
  | .broken broke _ => .error broke.read
  | .item value rest =>
    match Decoder.checkDoc levels value with
    | .error fault => .error fault
    | .ok () => (collectItems levels rest).map (value :: ·)
  | .lost value => (Decoder.checkDoc levels value).map fun _ => [value]

/-- The tag at the front of an array and the items after it. -/
def collectArray {τ : Type} (tag : String) (variants : List (String × τ)) (levels : Nat) :
    Items → Except Fault (τ × Content)
  | .done stop => .error ((Cause.missingField tag).at stop)
  | .broken broke _ => .error broke.read
  | .item value rest =>
    match tagOf variants value with
    | .error fault => .error fault
    | .ok t => (collectItems levels rest).map fun kept => (t, .items kept)
  | .lost value => (tagOf variants value).map fun t => (t, .items [])

/-- Reads the tag of a record and keeps the rest. -/
def collect {τ : Type} (name tag : String) (variants : List (String × τ)) :
    Decoder (τ × Content)
  | 0, .object start ms => .error (Doc.object start ms).tooDeep
  | 0, .array start is => .error (Doc.array start is).tooDeep
  | levels + 1, .object _ ms => collectMembers tag variants levels none [] ms
  | levels + 1, .array _ is => collectArray tag variants levels is
  | _, d => .error (d.mismatch (.tagged name))

/-- A text that may be null, in kept content. -/
def keptText : Doc → Except Fault (Option String)
  | .scalar _ _ .null => .ok none
  | .scalar _ _ (.string s _) => .ok (some s)
  | d => .error ⟨(d.mismatch .text).cause, none⟩

/-- The texts of the named members; members with other names are passed over. -/
def keptMembers (names : List String) :
    List (String × Option String) → List (String × Doc) → Except Fault (List (String × Option String))
  | found, [] => .ok found
  | found, (key, d) :: rest =>
    if names.contains key then
      if (found.lookup key).isSome then .error ⟨.duplicateField key, none⟩
      else
        match keptText d with
        | .error fault => .error fault
        | .ok s => keptMembers names ((key, s) :: found) rest
    else keptMembers names found rest

/-- The texts of the items, one for each name. -/
def keptItems (size : Nat) : List String → List Doc → Except Fault (List (String × Option String))
  | [], [] => .ok []
  | [], extra => .error ⟨.contentTooLong (size + extra.length) size, none⟩
  | _ :: _, [] => .ok []
  | name :: names, d :: rest =>
    match keptText d with
    | .error fault => .error fault
    | .ok s => (keptItems size names rest).map ((name, s) :: ·)

/-- The optional texts that kept content has under some names. -/
def keptTexts (names : List String) : Content → Except Fault (List (String × Option String))
  | .members ms => keptMembers names [] ms
  | .items is => keptItems names.length names is

end Tagged

end AnalysisBrowser.Json
