import MediaHarvest.Number.Binary64

/-!
# What a JSON text holds

A text is read into a tree that still knows where the text went wrong.  The reason is that a
reader of typed records meets the parts of a text one after another: a record of the wrong shape
near the front is reported although the text is cut off later on, and parts that are skipped are
held to fewer rules than parts that are read.

So a tree records, next to the values, how each list and object ends (`Ending`), and which faults
a value would show when it is read and when it is skipped.
-/

namespace MediaHarvest.Json

open MediaHarvest.Number

/-- Why a text is not a JSON text. -/
inductive Fault where
  /-- A character is not allowed where it stands. -/
  | malformed
  | cutOff
deriving DecidableEq, Repr

/-- The number that a numeral stands for. -/
inductive Numeral where
  /-- An integer of 64 bits, signed or unsigned. -/
  | integer (value : Int)
  | float (negative : Bool) (magnitude : Binary64)
deriving DecidableEq, Repr

/-- What a value is, as far as a message names it. -/
inductive Found where
  | null
  | bool (value : Bool)
  | number (value : Numeral)
  | text (value : String)
  | list
  | record
deriving DecidableEq, Repr

/-- How the items of a list or the members of an object end. -/
inductive Ending where
  | closed
  /-- With a fault where a comma or the closing bracket should stand; `met` shows when the next
  part is read and `skipped` when it is skipped. -/
  | unclosed (met skipped : Fault)
  /-- With a fault right behind a comma. -/
  | dangling (fault : Fault)
  /-- With a value where the first name of an object should stand. -/
  | misplaced (head : Except Fault Found)
deriving Repr

/-- A value of a text. -/
inductive Tree where
  | null
  | bool (value : Bool)
  /-- A number; none if it is beyond every representable one. -/
  | number (value : Option Numeral)
  /-- A text in quotes; none if its escapes or bytes do not make characters. -/
  | text (value : Option String)
  /-- A list; `deep` if too many lists and objects are open around it. -/
  | list (deep : Bool) (items : List Tree) (ending : Ending)
  | record (deep : Bool) (members : List (Option String × Tree)) (ending : Ending)
  | absent
  /-- The torn start of a value, of a quoted text or of another one: what is shown when it is read,
  and when it is skipped. -/
  | torn (quoted : Bool) (met skipped : Fault)
deriving Repr, Inhabited

/-- A text: its value, and whether only blanks follow it. -/
structure Document where
  root : Tree
  clean : Bool
deriving Repr

/-- The fault that the next part shows when it is skipped. -/
def Ending.skip : Ending → Except Fault Unit
  | .closed => .ok ()
  | .unclosed _ skipped => .error skipped
  | .dangling fault => .error fault
  | .misplaced _ => .error .malformed

/-- The fault that the next part shows when it is read. -/
def Ending.read : Ending → Except Fault Unit
  | .closed => .ok ()
  | .unclosed met _ => .error met
  | .dangling fault => .error fault
  | .misplaced _ => .error .malformed

/-- The fault that shows when no further part is wanted and only the closing bracket may come. -/
def Ending.close : Ending → Except Fault Unit
  | .closed => .ok ()
  | .unclosed met _ => .error met
  | .dangling _ => .error .malformed
  | .misplaced _ => .error .malformed

mutual

/-- Passes over a value that nothing needs. -/
def Tree.skip : Tree → Except Fault Unit
  | .absent => .error .cutOff
  | .torn _ _ skipped => .error skipped
  | .list _ items ending => do skipItems items; ending.skip
  | .record _ members ending => do skipMembers members; ending.skip
  | _ => .ok ()

/-- Passes over the items of a list. -/
def skipItems : List Tree → Except Fault Unit
  | [] => .ok ()
  | item :: rest => do item.skip; skipItems rest

/-- Passes over the members of an object. -/
def skipMembers : List (Option String × Tree) → Except Fault Unit
  | [] => .ok ()
  | (_, value) :: rest => do value.skip; skipMembers rest

end

mutual

/-- Checks a value that is kept for later without knowing what it has to be. -/
def Tree.check : Tree → Except Fault Unit
  | .absent => .error .cutOff
  | .torn _ met _ => .error met
  | .number none => .error .malformed
  | .text none => .error .malformed
  | .list deep items ending => do
      if deep then .error .malformed
      checkItems items; ending.read
  | .record deep members ending => do
      if deep then .error .malformed
      checkMembers members; ending.read
  | _ => .ok ()

/-- Checks the items of a list. -/
def checkItems : List Tree → Except Fault Unit
  | [] => .ok ()
  | item :: rest => do item.check; checkItems rest

/-- Checks the members of an object. -/
def checkMembers : List (Option String × Tree) → Except Fault Unit
  | [] => .ok ()
  | (name, value) :: rest => do
      if name = none then .error .malformed
      value.check; checkMembers rest

end

/-- What a value is, or the fault that shows when a message has to name it. -/
def Tree.found : Tree → Except Fault Found
  | .null => .ok .null
  | .bool value => .ok (.bool value)
  | .number (some value) => .ok (.number value)
  | .number none => .error .malformed
  | .text (some value) => .ok (.text value)
  | .text none => .error .malformed
  | .list .. => .ok .list
  | .record .. => .ok .record
  | .absent => .error .cutOff
  | .torn _ met _ => .error met

end MediaHarvest.Json
