import AnalysisBrowser.Json.Reader
import AnalysisBrowser.Proofs.Json.Denotes
import AnalysisBrowser.Proofs.Json.Tree

/-!
# The texts of a tree

The grammar of JSON as a relation between trees and their texts, with white space between any two
parts, every form of escape, and numbers with or without a fraction and an exponent. A tree has many
texts. The grammar knows nothing of the reader; that every text is read is another matter.
-/
namespace AnalysisBrowser.Json

open Text (isLeadUnit isTrailUnit pairChar)

/-- White space only. -/
def Gap (cs : List Char) : Prop := ∀ c ∈ cs, isGap c = true

/-- An exponent has its mark in either case, and may have a plus. -/
inductive ExponentSpelled : Option Number.Exponent → List Char → Prop
  | none : ExponentSpelled none []
  | power {e : Number.Exponent} {mark : Char} {sign : List Char} (marked : mark = 'e' ∨ mark = 'E')
      (signed : sign = (if e.negative then ['-'] else []) ∨ e.negative = false ∧ sign = ['+']) :
      ExponentSpelled (some e) (mark :: (sign ++ e.digits))

inductive NumberSpelled : Number.Literal → List Char → Prop
  | mk {l : Number.Literal} {power : List Char} (wellFormed : l.WellFormed)
      (exponent : ExponentSpelled l.exponent power) :
      NumberSpelled l ((if l.negative then ['-'] else []) ++ (l.whole ++
        ((if l.fraction.isEmpty then [] else '.' :: l.fraction) ++ power)))

/-- A character stands for itself, after a backslash for what it abbreviates, or is a code unit. -/
inductive MarkSpelled : Mark → List Char → Prop
  | plain {c : Char} (quote : c ≠ '"') (backslash : c ≠ '\\') (printed : ¬ c.toNat < 0x20) :
      MarkSpelled (.plain c) [c]
  | short {e c : Char} (escape : shortEscape? e = some c) : MarkSpelled (.short c) ['\\', e]
  | unit {a b c d : Char} {code : Nat} (hex : hexUnit? a b c d = some code) :
      MarkSpelled (.unit code) ['\\', 'u', a, b, c, d]

inductive MarksSpelled : List Mark → List Char → Prop
  | nil : MarksSpelled [] []
  | cons {m : Mark} {ms : List Mark} {cs body : List Char} (first : MarkSpelled m cs)
      (later : MarksSpelled ms body) : MarksSpelled (m :: ms) (cs ++ body)

/-- The characters of a string, unless a surrogate lacks its partner. -/
def marksText? : List Mark → Option (List Char)
  | [] => some []
  | .plain c :: ms => (marksText? ms).map (c :: ·)
  | .short c :: ms => (marksText? ms).map (c :: ·)
  | .unit n :: ms =>
    if isTrailUnit n then none
    else if isLeadUnit n then
      match ms with
      | .unit m :: more => if isTrailUnit m then (marksText? more).map (pairChar n m :: ·) else none
      | _ => none
    else (marksText? ms).map (Char.ofNat n :: ·)

inductive StringSpelled : Option String → List Char → Prop
  | mk {ms : List Mark} {body : List Char} (marks : MarksSpelled ms body) :
      StringSpelled ((marksText? ms).map String.ofList) ('"' :: (body ++ ['"']))

mutual

/-- The characters of a value, from its first to its last. -/
inductive Tree.Spelled : Tree → List Char → Prop
  | null : Tree.Spelled .null ['n', 'u', 'l', 'l']
  | true : Tree.Spelled (.bool true) ['t', 'r', 'u', 'e']
  | false : Tree.Spelled (.bool false) ['f', 'a', 'l', 's', 'e']
  | number {l : Number.Literal} {cs : List Char} (spelled : NumberSpelled l cs) :
      Tree.Spelled (.number l) cs
  | text {s : Option String} {cs : List Char} (spelled : StringSpelled s cs) :
      Tree.Spelled (.text s) cs
  | emptyArray {gap : List Char} (blank : Gap gap) : Tree.Spelled (.array []) ('[' :: (gap ++ [']']))
  | array {ts : List Tree} {cs : List Char} (items : ItemsSpelled ts cs) :
      Tree.Spelled (.array ts) ('[' :: (cs ++ [']']))
  | emptyObject {gap : List Char} (blank : Gap gap) :
      Tree.Spelled (.object []) ('\x7b' :: (gap ++ ['\x7d']))
  | object {ms : List (Option String × Tree)} {cs : List Char} (members : MembersSpelled ms cs) :
      Tree.Spelled (.object ms) ('\x7b' :: (cs ++ ['\x7d']))

/-- The items of an array and the commas between them. -/
inductive ItemsSpelled : List Tree → List Char → Prop
  | last {t : Tree} {before cs after : List Char} (left : Gap before) (value : t.Spelled cs)
      (right : Gap after) : ItemsSpelled [t] (before ++ (cs ++ after))
  | item {t : Tree} {ts : List Tree} {before cs after more : List Char} (left : Gap before)
      (value : t.Spelled cs) (right : Gap after) (later : ItemsSpelled ts more) :
      ItemsSpelled (t :: ts) (before ++ (cs ++ (after ++ ',' :: more)))

/-- The members of an object and the commas between them. -/
inductive MembersSpelled : List (Option String × Tree) → List Char → Prop
  | last {key : Option String} {t : Tree} {before name colon gap cs after : List Char}
      (left : Gap before) (named : StringSpelled key name) (middle : Gap colon) (space : Gap gap)
      (value : t.Spelled cs) (right : Gap after) :
      MembersSpelled [(key, t)] (before ++ (name ++ (colon ++ ':' :: (gap ++ (cs ++ after)))))
  | member {key : Option String} {t : Tree} {ms : List (Option String × Tree)}
      {before name colon gap cs after more : List Char} (left : Gap before)
      (named : StringSpelled key name) (middle : Gap colon) (space : Gap gap) (value : t.Spelled cs)
      (right : Gap after) (later : MembersSpelled ms more) :
      MembersSpelled ((key, t) :: ms)
        (before ++ (name ++ (colon ++ ':' :: (gap ++ (cs ++ (after ++ ',' :: more))))))

end

/-- The text is one of the tree, with white space around it. -/
def Tree.IsText (t : Tree) (text : String) : Prop :=
  ∃ before cs after, Gap before ∧ t.Spelled cs ∧ Gap after ∧ text.toList = before ++ (cs ++ after)

end AnalysisBrowser.Json
