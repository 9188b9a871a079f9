import LoopPainter.Binary64.Shortest
import LoopPainter.Calendar
import LoopPainter.Text.Quoted

/-!
# Plain data

The values that a job file or a log record may hold.  Mappings keep the order in
which their keys were first put; a later value for the same key takes the place of
the earlier one.  Keys are compared as values: a number equals every number of the
same value, whatever its type, and the truth values count as zero and one.

A color is no datum of its own: among plain values it is its word (`Job.colorValue`).

A list or mapping may be inside itself.  Where it comes up again, `enclosing` stands for
it, so every datum is a finite tree.

`display` is the plain text of a datum; inside a list or a mapping its parts are
shown by `literal`, which quotes text.
-/

namespace LoopPainter

/-- A plain value. -/
inductive Datum where
  | null
  | bool (value : Bool)
  | int (value : Int)
  | float (value : Binary64)
  | text (value : String)
  | day (value : Day)
  | moment (value : Moment)
  | bytes (value : List UInt8)
  | list (items : List Datum)
  | tuple (items : List Datum)
  | set (items : List Datum)
  | map (pairs : List (Datum × Datum))
  /-- The list or mapping that this is inside of, with so many of them in between. -/
  | enclosing (isMap : Bool) (between : Nat)
  deriving BEq, Inhabited

namespace Datum

/-- The name of a datum's type. -/
def typeName : Datum → String
  | null => "NoneType"
  | bool _ => "bool"
  | int _ => "int"
  | float _ => "float"
  | text _ => "str"
  | day _ => "date"
  | moment _ => "datetime"
  | bytes _ => "bytes"
  | list _ => "list"
  | tuple _ => "tuple"
  | set _ => "set"
  | map _ => "dict"
  | enclosing isMap _ => if isMap then "dict" else "list"

/-- The whole number that a datum stands for in a comparison of keys. -/
def keyInteger? : Datum → Option Int
  | bool b => some (if b then 1 else 0)
  | int i => some i
  | float x => x.toInt?
  | _ => none

/-- Equality of mapping keys. -/
def sameKey (a b : Datum) : Bool :=
  match a.keyInteger?, b.keyInteger? with
  | some i, some j => i == j
  | none, none =>
    match a, b with
    | float x, float y => x.sameValue y
    | null, null => true
    | text s, text t => s == t
    | day d, day e => d == e
    | moment m, moment n => m.same n
    | bytes x, bytes y => x == y
    | _, _ => false
  | _, _ => false

/-- Put a value under a key, in place if the key is present and at the end if not. -/
def putPair (key value : Datum) : List (Datum × Datum) → List (Datum × Datum)
  | [] => [(key, value)]
  | (k, v) :: rest =>
    if k.sameKey key then (k, value) :: rest else (k, v) :: putPair key value rest

/-- The value under a text key. -/
def get? (key : String) : List (Datum × Datum) → Option Datum
  | [] => none
  | (k, v) :: rest => if k.sameKey (text key) then some v else get? key rest

theorem sameKey_text {d : Datum} {key : String} : d.sameKey (text key) = true ↔ d = text key := by
  cases d <;> simp [sameKey, keyInteger?]
  case float x => cases x.toInt? <;> simp

/-- A text key that was put is found, and all others stay as they were. -/
@[simp] theorem get?_putPair (key other : String) (value : Datum) (pairs : List (Datum × Datum)) :
    get? other (putPair (text key) value pairs) =
      if other = key then some value else get? other pairs := by
  induction pairs with
  | nil => grind [putPair, get?, sameKey_text]
  | cons entry rest ih => grind [putPair, get?, sameKey_text]

/-- A new key comes at the end. -/
theorem putPair_of_not_mem {key : String} {value : Datum} {pairs : List (Datum × Datum)}
    (h : text key ∉ pairs.map (·.1)) :
    putPair (text key) value pairs = pairs ++ [(text key, value)] := by
  induction pairs with
  | nil => rfl
  | cons entry rest ih =>
    obtain ⟨k, v⟩ := entry
    rw [List.map_cons, List.mem_cons, not_or] at h
    have hne : k.sameKey (text key) = false := by
      rw [Bool.eq_false_iff]
      exact fun hsame => h.1 (sameKey_text.mp hsame).symm
    rw [putPair, hne, if_neg Bool.false_ne_true, ih h.2]
    rfl

/-! ## Text of a datum -/

/-- A day as a call. -/
def dayLiteral (d : Day) : List Char :=
  "datetime.date(".toList ++ Text.intDecimal d.year ++ ", ".toList ++ Text.decimal d.month ++
    ", ".toList ++ Text.decimal d.day ++ [')']

/-- An offset as a call. -/
def offsetLiteral (offset : Int) : List Char :=
  if offset = 0 then "datetime.timezone.utc".toList
  else
    let days := offset / 86400
    "datetime.timezone(datetime.timedelta(".toList ++
      (if days = 0 then [] else "days=".toList ++ Text.intDecimal days ++ ", ".toList) ++
      "seconds=".toList ++ Text.intDecimal (offset % 86400) ++ "))".toList

/-- A moment as a call; seconds and microseconds only where there are some. -/
def momentLiteral (m : Moment) : List Char :=
  let small :=
    if m.microsecond ≠ 0 then [m.hour, m.minute, m.second, m.microsecond]
    else if m.second ≠ 0 then [m.hour, m.minute, m.second]
    else [m.hour, m.minute]
  "datetime.datetime(".toList ++ Text.intDecimal m.date.year ++
    ([m.date.month, m.date.day] ++ small).flatMap (fun n => ", ".toList ++ Text.decimal n) ++
    (match m.offset with
      | none => []
      | some offset => ", tzinfo=".toList ++ offsetLiteral offset) ++ [')']

/-- Join parts with a comma and a space. -/
def commaSeparated : List (List Char) → List Char
  | [] => []
  | [s] => s
  | s :: rest => s ++ ", ".toList ++ commaSeparated rest

mutual

/-- A datum as it is shown inside a list or a mapping. -/
def literal : Datum → List Char
  | null => "None".toList
  | bool b => (if b then "True" else "False").toList
  | int i => Text.intDecimal i
  | float x => x.display
  | text s => Text.quoted s.toList
  | day d => dayLiteral d
  | moment m => momentLiteral m
  | bytes b => Text.quotedBytes b
  | list items => '[' :: commaSeparated (literals items) ++ [']']
  | tuple items =>
    match items with
    | [] => "()".toList
    | [x] => '(' :: literal x ++ ",)".toList
    | items => '(' :: commaSeparated (literals items) ++ [')']
  | set items =>
    match items with
    | [] => "set()".toList
    | items => '\x7b' :: commaSeparated (literals items) ++ ['\x7d']
  | map pairs => '\x7b' :: commaSeparated (pairLiterals pairs) ++ ['\x7d']
  | enclosing isMap _ => (if isMap then "\x7b...\x7d" else "[...]").toList

/-- The literals of a list of data. -/
def literals : List Datum → List (List Char)
  | [] => []
  | x :: rest => literal x :: literals rest

/-- The literals of the pairs of a mapping. -/
def pairLiterals : List (Datum × Datum) → List (List Char)
  | [] => []
  | (k, v) :: rest => (literal k ++ ": ".toList ++ literal v) :: pairLiterals rest

end

/-- The plain text of a datum. -/
def display : Datum → List Char
  | text s => s.toList
  | day d => d.iso
  | moment m => m.iso ' '
  | d => d.literal

mutual

/-- Whether a datum holds a number that has too many digits to be written. -/
def hasLongNumber : Datum → Bool
  | int i => Text.isTooLong i
  | list items | tuple items | set items => anyLongNumber items
  | map pairs => anyLongPair pairs
  | _ => false

/-- Whether one of some data holds a number that is too long. -/
def anyLongNumber : List Datum → Bool
  | [] => false
  | x :: rest => hasLongNumber x || anyLongNumber rest

/-- Whether a pair of a mapping holds a number that is too long. -/
def anyLongPair : List (Datum × Datum) → Bool
  | [] => false
  | (k, v) :: rest => hasLongNumber k || hasLongNumber v || anyLongPair rest

end

/-- The plain text of a datum as a string. -/
def displayString (d : Datum) : String :=
  String.ofList d.display

end Datum

end LoopPainter
