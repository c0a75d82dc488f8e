import AskSql.Json.Number
import AskSql.Text.Sorted

/-!
# Taking documents for values

A decoder takes a document for a value of some type, or refuses it.  Records are objects whose
unknown members are passed over, or arrays of their parts in order.  Alternatives carry their name
in a member of the object, or in front of the array.

A document that is read straight from a text may be nested `nestingLimit` deep where its parts are
looked at; members that are passed over have no limit.  Alternatives are held back until their
name is known, and so are looked at as a whole.
-/

namespace AskSql.Json

/-- How deep arrays and objects may be nested in a document that is read from a text. -/
def nestingLimit : Nat := 127

/-- Where a document comes from. -/
inductive Origin where
  /-- It is taken while it is read, with room for so many more levels of nesting. -/
  | direct (room : Nat)
  /-- It was held back and looked at before. -/
  | held

/-- Takes a document of some origin for a value. -/
abbrev Decoder (α : Type) := Origin → Json → Option α

/-- The origin of the parts of an array or object. -/
def Origin.inner : Origin → Option Origin
  | direct 0 => none
  | direct (room + 1) => some (direct room)
  | held => some held

mutual

/-- All numbers have a value, and arrays and objects are nested at most `room` deep. -/
def fits : Nat → Json → Bool
  | _, null => true
  | _, bool _ => true
  | _, number n => n.value?.isSome
  | _, text _ => true
  | 0, array _ => false
  | 0, object _ => false
  | room + 1, array items => itemsFit room items
  | room + 1, object members => membersFit room members

/-- All items fit. -/
def itemsFit : Nat → List Json → Bool
  | _, [] => true
  | room, j :: js => fits room j && itemsFit room js

/-- All members fit. -/
def membersFit : Nat → List (String × Json) → Bool
  | _, [] => true
  | room, (_, j) :: ms => fits room j && membersFit room ms

end

/-- Holds a document back, which looks at all of it. -/
def Origin.hold : Origin → Json → Option Json
  | direct room, j => if j.fits room then some j else none
  | held, j => some j

/-- A text. -/
def string? : Decoder String
  | _, text s => some s
  | _, _ => none

/-- A flag. -/
def bool? : Decoder Bool
  | _, bool b => some b
  | _, _ => none

/-- A whole number between two bounds. -/
def int? (low high : Int) : Decoder Int
  | _, number n =>
    match n.value? with
    | some (.whole v) => if low ≤ v && v ≤ high then some v else none
    | _ => none
  | _, _ => none

/-- A natural number below `2 ^ bits`. -/
def nat? (bits : Nat) : Decoder Nat := fun o j =>
  (int? 0 (Nat.pow 2 bits - 1) o j).map Int.toNat

/-- A whole number of 64 bits with sign. -/
def int64? : Decoder Int :=
  int? (-Nat.pow 2 63) (Nat.pow 2 63 - 1)

/-- A float; a whole number will do. -/
def float? : Decoder Float
  | _, number n => n.value?.map Number.toFloat
  | _, _ => none

/-- A value or null. -/
def nullable? {α : Type} (f : Decoder α) : Decoder (Option α)
  | _, null => some none
  | o, j => (f o j).map some

/-- An array of values. -/
def list? {α : Type} (f : Decoder α) : Decoder (List α)
  | o, array items => do
    let o ← o.inner
    items.mapM (f o)
  | _, _ => none

/-- How often a name stands among some members. -/
def occurrences (name : String) (members : List (String × Json)) : Nat :=
  members.countP fun m => m.1 == name

/-- The parts of a record by their names: from an object, where none of them may stand twice, or
in order from an array, which may end early. -/
def parts? (names : List String) : Json → Option (List (Option Json))
  | object members =>
    if names.all fun name => occurrences name members ≤ 1 then
      some (names.map fun name => members.lookup name)
    else none
  | array items =>
    if items.length ≤ names.length then
      some ((List.range names.length).map fun i => items[i]?)
    else none
  | _ => none

/-- A part that has to be there. -/
def required? {α : Type} (f : Decoder α) (o : Origin) (part : Option Json) : Option α :=
  part.bind (f o)

/-- A part that has a value of its own where it is missing. -/
def optional? {α : Type} (f : Decoder α) (default : α) (o : Origin) : Option Json → Option α
  | none => some default
  | some j => f o j

/-- One of several named values: the name, or an object with the name and nothing behind it. -/
def choice? {α : Type} (names : List (String × α)) : Decoder α
  | _, text s => names.lookup s
  | _, object [(name, null)] => names.lookup name
  | .held, object [(name, object [])] => names.lookup name
  | _, _ => none

/-- The alternative that a tag names; among parts that were held back its number will do. -/
def tag? {α : Type} (names : List (String × α)) : Decoder α
  | _, text s => names.lookup s
  | .held, number n =>
    match n.value? with
    | some (.whole v) => if v < 0 then none else (names[v.toNat]?).map Prod.snd
    | _ => none
  | _, _ => none

/-- An alternative whose name stands in the member `tag`, or in front of an array, with what
remains when the name is taken away. -/
def tagged? {α : Type} (tag : String) (names : List (String × α)) (o : Origin) (j : Json) :
    Option (α × Json) := do
  match ← o.hold j with
  | object members =>
    if occurrences tag members == 1 then
      let name ← members.lookup tag
      return (← tag? names o name, object (members.filter fun m => m.1 != tag))
    else none
  | array (name :: items) => return (← tag? names o name, array items)
  | _ => none

/-- One of several alternatives, each with what it makes of the remaining parts. -/
def alternatives? {α : Type} (tag : String) (names : List (String × (Json → Option α))) :
    Decoder α := fun o j => do
  let (take, rest) ← tagged? tag names o j
  take rest

/-- A record with the named parts. -/
def record? {α : Type} (names : List String) (take : Origin → List (Option Json) → Option α) :
    Decoder α := fun o j => do
  take (← o.inner) (← parts? names j)

/-- An alternative without parts: an object will do whatever it holds, an array has to be
empty. -/
def noParts? : Json → Option Unit
  | object _ => some ()
  | array [] => some ()
  | _ => none

/-- The members in the order of their names; of several members of one name the last one stays. -/
def sortMembers (ms : List (String × Json)) : List (String × Json) :=
  ms.foldl (fun acc (name, j) => Text.upsert name (fun _ => j) acc) []

mutual

/-- The document with the members of each object in the order of their names, each name once. -/
def settled : Json → Json
  | null => null
  | bool b => bool b
  | number n => number n
  | text s => text s
  | array items => array (settledItems items)
  | object members => object (sortMembers (settledMembers members))

/-- The items, settled. -/
def settledItems : List Json → List Json
  | [] => []
  | j :: js => settled j :: settledItems js

/-- The members, settled, in the order in which they stand. -/
def settledMembers : List (String × Json) → List (String × Json)
  | [] => []
  | (name, j) :: ms => (name, settled j) :: settledMembers ms

end

mutual

/-- How deep arrays and objects are nested. -/
def depth : Json → Nat
  | array items => depthOfItems items + 1
  | object members => depthOfMembers members + 1
  | _ => 0

/-- The depth of the deepest item. -/
def depthOfItems : List Json → Nat
  | [] => 0
  | j :: js => max (depth j) (depthOfItems js)

/-- The depth of the deepest member. -/
def depthOfMembers : List (String × Json) → Nat
  | [] => 0
  | (_, j) :: ms => max (depth j) (depthOfMembers ms)

end

/-- The member of a name, of an object. -/
def get? (name : String) : Json → Option Json
  | object members => members.lookup name
  | _ => none

/-- The text of a document that is one. -/
def asString? : Json → Option String
  | text s => some s
  | _ => none

/-- The items of a document that is an array. -/
def asArray? : Json → Option (List Json)
  | array items => some items
  | _ => none

/-- The natural number of 64 bits that a document is. -/
def asNat? (j : Json) : Option Nat :=
  nat? 64 .held j

end AskSql.Json
