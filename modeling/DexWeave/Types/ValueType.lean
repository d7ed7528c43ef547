/-
  DexWeave/Types/ValueType.lean --- the types of registers, parameters and results.

  WHAT THIS FILE IS FOR.  A value type is an element type, primitive or class, under
  any number of array dimensions.  A type has two texts: its descriptor, which is
  what containers store, and the name shown to people.

  THE ORDER.  Types are ordered by their dimensions first and by their element
  second; primitive elements come before classes.
-/
import DexWeave.Types.ClassName

set_option autoImplicit false

namespace DexWeave

/-- The primitive types, in their order. -/
inductive Primitive where
  | boolean
  | char
  | float
  | double
  | byte
  | short
  | int
  | long
  deriving DecidableEq, Repr, Inhabited, Hashable, Ord

namespace Primitive

/-- The letter of the type in a descriptor. -/
def letter : Primitive → Char
  | boolean => 'Z'
  | char => 'C'
  | float => 'F'
  | double => 'D'
  | byte => 'B'
  | short => 'S'
  | int => 'I'
  | long => 'J'

/-- The type a letter stands for. -/
def ofLetter? : Char → Option Primitive
  | 'Z' => some boolean
  | 'C' => some char
  | 'F' => some float
  | 'D' => some double
  | 'B' => some byte
  | 'S' => some short
  | 'I' => some int
  | 'J' => some long
  | _ => none

/-- The name shown to people. -/
def display : Primitive → String
  | boolean => "boolean"
  | char => "char"
  | float => "float"
  | double => "double"
  | byte => "byte"
  | short => "short"
  | int => "int"
  | long => "long"

/-- Whether values of the type take 64 bits. -/
def isWide : Primitive → Bool
  | long | double => true
  | _ => false

theorem ofLetter?_eq_some_iff {c : Char} {p : Primitive} :
    ofLetter? c = some p ↔ c = p.letter := by
  constructor
  · intro h
    unfold ofLetter? at h
    split at h <;> simp_all [letter] <;> subst h <;> rfl
  · rintro rfl
    cases p <;> rfl

end Primitive

/-- The innermost type of a value type. -/
inductive ElementType where
  /-- A number or a truth value. -/
  | primitive (type : Primitive)
  /-- An instance of a class. -/
  | object (name : ClassName)
  deriving DecidableEq, Repr, Inhabited, Hashable, Ord

namespace ElementType

/-- The descriptor of the type. -/
def descriptor : ElementType → String
  | primitive p => String.singleton p.letter
  | object c => c.descriptor

/-- The name shown to people. -/
def display : ElementType → String
  | primitive p => p.display
  | object c => c.text

/-- Reads a text that is an element type from its start to its end.  The name of a class runs up
to the first semicolon, which must be the last character, and must not be empty. -/
def parse : List Char → Option ElementType
  | [] => none
  | c :: rest =>
    if c = 'L' then
      match rest.takeWhile (· ≠ ';'), rest.dropWhile (· ≠ ';') with
      | [], _ => none
      | name, [_] => some (object ⟨String.ofList name⟩)
      | _, _ => none
    else if rest = [] then (Primitive.ofLetter? c).map primitive
    else none

/-- Reads an element type off the front of a descriptor, with what follows it.  The name of a
class runs up to the first semicolon and must not be empty. -/
def read : List Char → Option (ElementType × List Char)
  | [] => none
  | c :: rest =>
    if c = 'L' then
      match rest.takeWhile (· ≠ ';'), rest.dropWhile (· ≠ ';') with
      | _, [] => none
      | [], _ => none
      | name, _ :: after => some (object ⟨String.ofList name⟩, after)
    else (Primitive.ofLetter? c).map fun p => (primitive p, rest)

theorem length_read {cs rest : List Char} {t : ElementType} (h : read cs = some (t, rest)) :
    rest.length < cs.length := by
  cases cs with
  | nil => simp [read] at h
  | cons c cs =>
    simp only [read] at h
    split at h
    · have hd : (cs.dropWhile (· ≠ ';')).length ≤ cs.length :=
        (List.dropWhile_sublist _).length_le
      split at h
      · simp at h
      · simp at h
      · rename_i hdrop _
        simp only [Option.some.injEq, Prod.mk.injEq] at h
        rw [hdrop] at hd
        simp only [List.length_cons] at hd ⊢
        rw [← h.2]
        omega
    · simp only [Option.map_eq_some_iff, Prod.mk.injEq] at h
      obtain ⟨_, _, _, rfl⟩ := h
      simp

end ElementType

/-- The type of a value. -/
structure ValueType where
  /-- How many array dimensions stand around the element. -/
  dimensions : Nat
  /-- The innermost type. -/
  element : ElementType
  deriving DecidableEq, Repr, Inhabited, Hashable, Ord

namespace ValueType

/-- A primitive type. -/
def primitive (p : Primitive) : ValueType := ⟨0, .primitive p⟩

/-- The type of the instances of a class. -/
def object (c : ClassName) : ValueType := ⟨0, .object c⟩

/-- The type of the arrays of `n` dimensions over a type. -/
def arrayOf (t : ValueType) (n : Nat) : ValueType := { t with dimensions := t.dimensions + n }

/-- The descriptor of the type: one bracket a dimension, then the element. -/
def descriptor (t : ValueType) : String :=
  String.ofList (List.replicate t.dimensions '[') ++ t.element.descriptor

/-- The name shown to people: the element, then a pair of brackets a dimension. -/
def display (t : ValueType) : String :=
  t.element.display ++ String.join (List.replicate t.dimensions "[]")

/-- Reads a text that is a type from its start to its end, one dimension a bracket. -/
def parse : List Char → Option ValueType
  | [] => none
  | c :: rest =>
    if c = '[' then (parse rest).map fun t => t.arrayOf 1
    else (ElementType.parse (c :: rest)).map fun element => ⟨0, element⟩

/-- The type whose descriptor is given. -/
def ofDescriptor? (descriptor : String) : Option ValueType := parse descriptor.toList

/-- Reads a type off the front of a descriptor, with what follows it. -/
def read (cs : List Char) : Option (ValueType × List Char) :=
  (ElementType.read (cs.dropWhile (· = '['))).map fun (element, rest) =>
    (⟨(cs.takeWhile (· = '[')).length, element⟩, rest)

theorem length_read {cs rest : List Char} {t : ValueType} (h : read cs = some (t, rest)) :
    rest.length < cs.length := by
  simp only [read, Option.map_eq_some_iff, Prod.mk.injEq] at h
  obtain ⟨⟨element, after⟩, he, _, rfl⟩ := h
  exact Nat.lt_of_lt_of_le (ElementType.length_read he) (List.dropWhile_sublist _).length_le

/-- Whether a value of the type takes a pair of registers. -/
def isWide (t : ValueType) : Bool :=
  match t with
  | ⟨0, .primitive p⟩ => p.isWide
  | _ => false

/-- Whether a value of the type is a reference. -/
def isReference (t : ValueType) : Bool :=
  match t with
  | ⟨0, .primitive _⟩ => false
  | _ => true

/-- The number of registers that hold a value of the type. -/
def width (t : ValueType) : Nat := if t.isWide then 2 else 1

/-- The number of registers that hold values of the types, one after the other. -/
def totalWidth : List ValueType → Nat
  | [] => 0
  | t :: ts => t.width + totalWidth ts

/-- The same number as it is counted, in sixteen bits: behind the last of them the count starts
again at zero. -/
def countWidths (ts : List ValueType) : UInt16 :=
  ts.foldl (fun count t => count + UInt16.ofNat t.width) 0

theorem countWidths_eq (ts : List ValueType) : countWidths ts = UInt16.ofNat (totalWidth ts) := by
  have hfrom : ∀ n, ts.foldl (fun count t => count + UInt16.ofNat t.width) (UInt16.ofNat n) =
      UInt16.ofNat (n + totalWidth ts) := by
    induction ts with
    | nil => exact fun n => rfl
    | cons t ts ih =>
      intro n
      rw [List.foldl_cons, ← UInt16.ofNat_add, ih, totalWidth, Nat.add_assoc]
  have hzero := hfrom 0
  rwa [Nat.zero_add] at hzero

instance : ToString ValueType := ⟨display⟩

end ValueType

end DexWeave
