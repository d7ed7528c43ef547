/-
  DexWeave/Proofs/Descriptor.lean --- which texts are descriptors.

  WHAT THIS FILE IS FOR.  A descriptor is printed for any name and read back for some
  names only.  A class standing alone is read back unless its name is empty.  A type
  inside a prototype ends at its first semicolon, so there the name of a class must
  have none.

  TWO READERS.  A type standing alone is read as a whole text, and a parameter is read
  off the front of what is left of a prototype.  The first is the second with nothing
  left (`parse_eq_some_iff_read`).

  WHAT IS PROVED.  Each reader accepts exactly the printed texts of the values that can
  be read back, and returns the value that was printed.
-/
import DexWeave.Types.MethodRef

set_option autoImplicit false

namespace DexWeave

/-! ## Classes -/

namespace ClassName

/-- The name can stand inside a longer descriptor: it is not empty and no semicolon ends it
early. -/
structure WellFormed (c : ClassName) : Prop where
  nonempty : c.text ≠ ""
  unbroken : ';' ∉ c.text.toList

instance (c : ClassName) : Decidable c.WellFormed :=
  decidable_of_iff (c.text ≠ "" ∧ ';' ∉ c.text.toList)
    ⟨fun h => ⟨h.1, h.2⟩, fun h => ⟨h.nonempty, h.unbroken⟩⟩

theorem toList_descriptor (c : ClassName) :
    c.descriptor.toList = 'L' :: (c.text.toList ++ [';']) := by
  simp [descriptor, String.toList_append]

theorem descriptor_injective {c c' : ClassName} (h : c.descriptor = c'.descriptor) : c = c' := by
  have hlist := congrArg String.toList h
  rw [toList_descriptor, toList_descriptor, List.cons.injEq] at hlist
  have htext : c.text = c'.text := String.toList_injective (List.append_cancel_right hlist.2)
  cases c
  cases c'
  exact congrArg ClassName.mk htext

/-- The descriptor of a class standing alone is read back unless its name is empty. -/
theorem ofDescriptor?_descriptor (c : ClassName) :
    ofDescriptor? c.descriptor = if c.text = "" then none else some c := by
  have hne : c.text.toList = [] ↔ c.text = "" := by
    rw [← String.toList_inj, String.toList_empty]
  rw [ofDescriptor?, toList_descriptor]
  by_cases h : c.text = ""
  · simp [h]
  · simp [hne, h]

/-- Only descriptors of classes are read as classes, and never one of an empty name. -/
theorem eq_of_ofDescriptor? {s : String} {c : ClassName} (h : ofDescriptor? s = some c) :
    s = c.descriptor ∧ c.text ≠ "" := by
  unfold ofDescriptor? at h
  split at h
  · rename_i body hs
    split at h
    · rename_i hbody
      obtain rfl := Option.some.inj h
      obtain ⟨hlast, hfront⟩ := hbody
      obtain ⟨name, rfl⟩ := List.getLast?_eq_some_iff.mp hlast
      rw [List.dropLast_concat] at hfront ⊢
      constructor
      · apply String.toList_injective
        rw [hs, toList_descriptor, String.toList_ofList]
      · intro hempty
        exact hfront (by simpa using congrArg String.toList hempty)
    · simp at h
  · simp at h

end ClassName

/-! ## Types -/

namespace ElementType

/-- The name of the class, if the type is one, can stand inside a longer descriptor. -/
def WellFormed : ElementType → Prop
  | primitive _ => True
  | object c => c.WellFormed

instance (t : ElementType) : Decidable t.WellFormed :=
  match t with
  | primitive _ => inferInstanceAs (Decidable True)
  | object c => inferInstanceAs (Decidable c.WellFormed)

theorem toList_descriptor_primitive (p : Primitive) :
    (primitive p).descriptor.toList = [p.letter] := by
  simp [descriptor]

theorem descriptor_injective {t t' : ElementType} (h : t.descriptor = t'.descriptor) :
    t = t' := by
  have hlist := congrArg String.toList h
  cases t with
  | primitive p =>
    cases t' with
    | primitive q =>
      simp only [toList_descriptor_primitive, List.cons.injEq, and_true] at hlist
      have hq := Primitive.ofLetter?_eq_some_iff.mpr hlist
      rw [Primitive.ofLetter?_eq_some_iff.mpr rfl] at hq
      rw [Option.some.inj hq]
    | object c => simp [descriptor, ClassName.toList_descriptor] at hlist
  | object c =>
    cases t' with
    | primitive q => simp [descriptor, ClassName.toList_descriptor] at hlist
    | object c' => rw [ClassName.descriptor_injective h]

/-- No descriptor of an element type opens with a bracket. -/
theorem head_descriptor_ne (t : ElementType) (rest : List Char) :
    (t.descriptor.toList ++ rest).head? ≠ some '[' := by
  cases t with
  | primitive p => cases p <;> simp [toList_descriptor_primitive, Primitive.letter]
  | object c => simp [descriptor, ClassName.toList_descriptor]

theorem read_append {t : ElementType} (ht : t.WellFormed) (rest : List Char) :
    read (t.descriptor.toList ++ rest) = some (t, rest) := by
  cases t with
  | primitive p =>
    have hletter : p.letter ≠ 'L' := by cases p <;> decide
    rw [toList_descriptor_primitive, List.singleton_append, read, if_neg hletter,
      Primitive.ofLetter?_eq_some_iff.mpr rfl]
    rfl
  | object c =>
    obtain ⟨hne, hsemi⟩ := ht
    have hall : ∀ x ∈ c.text.toList, decide (x ≠ ';') = true := by
      intro x hx
      rw [decide_eq_true_eq]
      rintro rfl
      exact hsemi hx
    have hname : c.text.toList ≠ [] := by
      rw [ne_eq, ← String.toList_empty, String.toList_inj]
      exact hne
    have htake : (c.text.toList ++ ';' :: rest).takeWhile (· ≠ ';') = c.text.toList := by
      rw [List.takeWhile_append_of_pos hall]
      simp
    have hdrop : (c.text.toList ++ ';' :: rest).dropWhile (· ≠ ';') = ';' :: rest := by
      rw [List.dropWhile_append_of_pos hall]
      simp
    rw [descriptor, ClassName.toList_descriptor, List.cons_append, List.append_assoc,
      List.singleton_append, read, if_pos rfl, htake, hdrop]
    obtain ⟨x, xs, hx⟩ := List.exists_cons_of_ne_nil hname
    have htext : String.ofList (x :: xs) = c.text := by rw [← hx, String.ofList_toList]
    rw [hx]
    simp only [htext]

/-- What stands before the first semicolon, and the semicolon itself. -/
theorem split_of_dropWhile {cs after : List Char} {x : Char}
    (h : cs.dropWhile (· ≠ ';') = x :: after) :
    cs.takeWhile (· ≠ ';') ++ ';' :: after = cs ∧ ';' ∉ cs.takeWhile (· ≠ ';') := by
  have hx : x = ';' := by
    have hhead := List.head?_dropWhile_not (fun y => decide (y ≠ ';')) cs
    rw [h] at hhead
    simpa using hhead
  subst hx
  constructor
  · rw [← h]
    exact List.takeWhile_append_dropWhile
  · intro hmem
    simpa using List.all_eq_true.mp List.all_takeWhile _ hmem

theorem eq_append_of_read {cs rest : List Char} {t : ElementType}
    (h : read cs = some (t, rest)) : t.WellFormed ∧ cs = t.descriptor.toList ++ rest := by
  cases cs with
  | nil => simp [read] at h
  | cons c cs =>
    simp only [read] at h
    split at h
    · rename_i hc
      subst hc
      split at h
      · simp at h
      · simp at h
      · rename_i x after hdrop hname
        simp only [Option.some.injEq, Prod.mk.injEq] at h
        obtain ⟨rfl, rfl⟩ := h
        obtain ⟨hsplit, hall⟩ := split_of_dropWhile hdrop
        refine ⟨⟨?_, ?_⟩, ?_⟩
        · intro hempty
          exact hname (by simpa using congrArg String.toList hempty)
        · rw [String.toList_ofList]
          exact hall
        · rw [descriptor, ClassName.toList_descriptor, String.toList_ofList, List.cons_append,
            List.append_assoc, List.singleton_append, hsplit]
    · simp only [Option.map_eq_some_iff, Prod.mk.injEq] at h
      obtain ⟨p, hp, rfl, rfl⟩ := h
      obtain rfl := Primitive.ofLetter?_eq_some_iff.mp hp
      exact ⟨trivial, by rw [toList_descriptor_primitive, List.singleton_append]⟩

/-- A whole text is an element type exactly if one can be read off its front and nothing is
left. -/
theorem parse_eq_some_iff_read {cs : List Char} {t : ElementType} :
    parse cs = some t ↔ read cs = some (t, []) := by
  cases cs with
  | nil => simp [parse, read]
  | cons c rest =>
    rw [parse, read]
    by_cases hc : c = 'L'
    · rw [if_pos hc, if_pos hc]
      generalize rest.takeWhile (· ≠ ';') = name
      rcases rest.dropWhile (· ≠ ';') with _ | ⟨x, _ | ⟨y, after⟩⟩ <;> cases name <;> simp
    · rw [if_neg hc, if_neg hc]
      cases rest <;> simp

end ElementType

namespace ValueType

/-- The name of the innermost class, if there is one, can stand inside a longer descriptor. -/
def WellFormed (t : ValueType) : Prop := t.element.WellFormed

instance (t : ValueType) : Decidable t.WellFormed :=
  inferInstanceAs (Decidable t.element.WellFormed)

theorem toList_descriptor (t : ValueType) :
    t.descriptor.toList = List.replicate t.dimensions '[' ++ t.element.descriptor.toList := by
  rw [descriptor, String.toList_append, String.toList_ofList]

theorem takeWhile_descriptor (t : ValueType) (rest : List Char) :
    (t.descriptor.toList ++ rest).takeWhile (· = '[') = List.replicate t.dimensions '[' := by
  have hhead := ElementType.head_descriptor_ne t.element rest
  rw [toList_descriptor, List.append_assoc, List.takeWhile_append_of_pos (by simp)]
  cases h : t.element.descriptor.toList ++ rest <;> simp_all

theorem dropWhile_descriptor (t : ValueType) (rest : List Char) :
    (t.descriptor.toList ++ rest).dropWhile (· = '[') = t.element.descriptor.toList ++ rest := by
  have hhead := ElementType.head_descriptor_ne t.element rest
  rw [toList_descriptor, List.append_assoc, List.dropWhile_append_of_pos (by simp)]
  cases h : t.element.descriptor.toList ++ rest <;> simp_all

theorem descriptor_injective {t t' : ValueType} (h : t.descriptor = t'.descriptor) : t = t' := by
  have hdim : t.dimensions = t'.dimensions := by
    have htake := takeWhile_descriptor t []
    rw [h, takeWhile_descriptor t' []] at htake
    simpa using (congrArg List.length htake).symm
  have helem : t.element = t'.element := by
    have hdrop := dropWhile_descriptor t []
    rw [h, dropWhile_descriptor t' [], List.append_nil, List.append_nil] at hdrop
    exact (ElementType.descriptor_injective (String.toList_injective hdrop)).symm
  cases t
  cases t'
  rw [ValueType.mk.injEq]
  exact ⟨hdim, helem⟩

theorem read_append {t : ValueType} (ht : t.WellFormed) (rest : List Char) :
    read (t.descriptor.toList ++ rest) = some (t, rest) := by
  rw [read, takeWhile_descriptor, dropWhile_descriptor, ElementType.read_append ht,
    List.length_replicate]
  rfl

theorem eq_append_of_read {cs rest : List Char} {t : ValueType}
    (h : read cs = some (t, rest)) : t.WellFormed ∧ cs = t.descriptor.toList ++ rest := by
  simp only [read, Option.map_eq_some_iff, Prod.mk.injEq] at h
  obtain ⟨⟨element, after⟩, he, rfl, rfl⟩ := h
  obtain ⟨hwf, hcs⟩ := ElementType.eq_append_of_read he
  refine ⟨hwf, ?_⟩
  have hbrackets : cs.takeWhile (· = '[') =
      List.replicate (cs.takeWhile (· = '[')).length '[' := by
    refine List.eq_replicate_of_mem fun x hx => ?_
    simpa using List.all_eq_true.mp List.all_takeWhile x hx
  rw [toList_descriptor, ← hbrackets, List.append_assoc, ← hcs]
  exact List.takeWhile_append_dropWhile.symm

theorem read_bracket (cs : List Char) :
    read ('[' :: cs) = (read cs).map fun (t, rest) => (t.arrayOf 1, rest) := by
  simp [read, arrayOf, Function.comp_def]

theorem read_of_ne {c : Char} (h : c ≠ '[') (cs : List Char) :
    read (c :: cs) =
      (ElementType.read (c :: cs)).map fun (element, rest) => (⟨0, element⟩, rest) := by
  simp [read, h]

/-- A whole text is a type exactly if one can be read off its front and nothing is left: a
dimension read at the front is one more dimension of what is read behind it. -/
theorem parse_eq_some_iff_read {cs : List Char} {t : ValueType} :
    parse cs = some t ↔ read cs = some (t, []) := by
  induction cs generalizing t with
  | nil => simp [parse, read, ElementType.read]
  | cons c rest ih =>
    rw [parse]
    by_cases hc : c = '['
    · subst hc
      simp [read_bracket, ih]
    · simp [read_of_ne hc, hc, ElementType.parse_eq_some_iff_read]

/-- A text is read as a type exactly if it is the descriptor of a well-formed one. -/
theorem ofDescriptor?_eq_some_iff {s : String} {t : ValueType} :
    ofDescriptor? s = some t ↔ t.WellFormed ∧ s = t.descriptor := by
  rw [ofDescriptor?, parse_eq_some_iff_read]
  constructor
  · intro hread
    obtain ⟨hwf, hs⟩ := eq_append_of_read hread
    rw [List.append_nil] at hs
    exact ⟨hwf, String.toList_injective hs⟩
  · rintro ⟨hwf, rfl⟩
    have hread := read_append hwf []
    rwa [List.append_nil] at hread

/-- The descriptor of an ill-formed type is read as no type at all. -/
theorem ofDescriptor?_descriptor (t : ValueType) :
    ofDescriptor? t.descriptor = if t.WellFormed then some t else none := by
  split
  · rename_i ht
    exact ofDescriptor?_eq_some_iff.mpr ⟨ht, rfl⟩
  · rename_i ht
    rw [Option.eq_none_iff_forall_ne_some]
    intro t' h
    obtain ⟨ht', heq⟩ := ofDescriptor?_eq_some_iff.mp h
    exact ht (descriptor_injective heq ▸ ht')

/-- No type has the descriptor of an absent result. -/
theorem descriptor_ne_void (t : ValueType) : t.descriptor ≠ "V" := by
  intro h
  have hlist := congrArg String.toList h
  rw [toList_descriptor] at hlist
  cases hdim : t.dimensions with
  | zero =>
    rw [hdim] at hlist
    cases helem : t.element with
    | primitive p => cases p <;> simp [helem, ElementType.descriptor, Primitive.letter] at hlist
    | object c => simp [helem, ElementType.descriptor, ClassName.toList_descriptor] at hlist
  | succ n => simp [hdim, List.replicate_succ] at hlist

end ValueType

namespace ResultType

/-- The result is absent or of a well-formed type. -/
def WellFormed : ResultType → Prop
  | value t => t.WellFormed
  | void => True

instance (r : ResultType) : Decidable r.WellFormed :=
  match r with
  | value t => inferInstanceAs (Decidable t.WellFormed)
  | void => inferInstanceAs (Decidable True)

theorem descriptor_injective {r r' : ResultType} (h : r.descriptor = r'.descriptor) : r = r' := by
  cases r with
  | value t =>
    cases r' with
    | value t' => exact congrArg value (ValueType.descriptor_injective h)
    | void => exact absurd h t.descriptor_ne_void
  | void =>
    cases r' with
    | value t' => exact absurd h.symm t'.descriptor_ne_void
    | void => rfl

theorem ofDescriptor?_eq_some_iff {s : String} {r : ResultType} :
    ofDescriptor? s = some r ↔ r.WellFormed ∧ s = r.descriptor := by
  unfold ofDescriptor?
  split
  · rename_i hs
    subst hs
    cases r with
    | value t => simp [descriptor, (ValueType.descriptor_ne_void t).symm]
    | void => simp [WellFormed, descriptor]
  · rename_i hs
    cases r with
    | value t => simp [ValueType.ofDescriptor?_eq_some_iff, WellFormed, descriptor]
    | void => simp [descriptor, hs]

theorem ofDescriptor?_descriptor (r : ResultType) :
    ofDescriptor? r.descriptor = if r.WellFormed then some r else none := by
  cases r with
  | value t =>
    rw [ofDescriptor?, descriptor, if_neg (ValueType.descriptor_ne_void t),
      ValueType.ofDescriptor?_descriptor]
    by_cases ht : t.WellFormed <;> simp [WellFormed, ht]
  | void => simp [ofDescriptor?, descriptor, WellFormed]

end ResultType

/-! ## Prototypes and methods -/

/-- Every type of the prototype is well formed. -/
structure Prototype.WellFormed (p : Prototype) : Prop where
  parameters : ∀ t ∈ p.parameters, t.WellFormed
  result : p.result.WellFormed

instance (p : Prototype) : Decidable p.WellFormed :=
  decidable_of_iff ((∀ t ∈ p.parameters, t.WellFormed) ∧ p.result.WellFormed)
    ⟨fun h => ⟨h.1, h.2⟩, fun h => ⟨h.parameters, h.result⟩⟩

/-- The owner has a name and the prototype is well formed. -/
structure MethodRef.WellFormed (m : MethodRef) : Prop where
  owner : m.owner.text ≠ ""
  prototype : m.prototype.WellFormed

instance (m : MethodRef) : Decidable m.WellFormed :=
  decidable_of_iff (m.owner.text ≠ "" ∧ m.prototype.WellFormed)
    ⟨fun h => ⟨h.1, h.2⟩, fun h => ⟨h.owner, h.prototype⟩⟩

end DexWeave
