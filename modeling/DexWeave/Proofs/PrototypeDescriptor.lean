/-
  DexWeave/Proofs/PrototypeDescriptor.lean --- which texts are prototypes.

  WHAT THIS FILE IS FOR.  A type is read in two ways: as a whole text, and off the
  front of the parameters of a prototype.  Nothing marks where a parameter ends, and
  the name of a class may hold brackets, parentheses and the letters of other types.

  THE ARGUMENT.  The reader of parameters is sound and complete for the descriptors
  of well-formed types closed by a parenthesis, whatever comes behind it.  So a text
  is split into parameters in one way, and what is read alone is what is read between
  parentheses.
-/
import DexWeave.Proofs.Descriptor

set_option autoImplicit false

namespace DexWeave

/-! ## Lists of parameters -/

namespace ValueType

/-- The descriptors of the types, one after the other. -/
def descriptors (ts : List ValueType) : List Char :=
  ts.flatMap fun t => t.descriptor.toList

theorem descriptors_nil : descriptors [] = [] := rfl

theorem descriptors_cons (t : ValueType) (ts : List ValueType) :
    descriptors (t :: ts) = t.descriptor.toList ++ descriptors ts := rfl

theorem toList_join_descriptor (ts : List ValueType) :
    (String.join (ts.map descriptor)).toList = descriptors ts := by
  rw [String.toList_join, List.flatMap_map, descriptors]

/-- No descriptor of a type opens with the parenthesis that closes the parameters. -/
theorem head_descriptor_ne (t : ValueType) (rest : List Char) :
    (t.descriptor.toList ++ rest).head? ≠ some ')' := by
  rw [toList_descriptor]
  cases t.dimensions with
  | zero =>
    cases t.element with
    | primitive p =>
      cases p <;> simp [ElementType.toList_descriptor_primitive, Primitive.letter]
    | object c => simp [ElementType.descriptor, ClassName.toList_descriptor]
  | succ n => simp [List.replicate_succ]

end ValueType

namespace Prototype

theorem readParameters_close (rest : List Char) :
    readParameters (')' :: rest) = some ([], rest) := by
  rw [readParameters]

/-- A text that does not close the parameters opens with one more of them. -/
theorem readParameters_of_head_ne {cs : List Char} (h : cs.head? ≠ some ')') :
    readParameters cs = (ValueType.read cs).bind fun (t, rest) =>
      (readParameters rest).map fun (ts, after) => (t :: ts, after) := by
  rw [readParameters]
  · split <;> rename_i hread <;> simp only [hread, Option.bind_none, Option.bind_some]
  · rintro rest rfl
    exact h rfl

/-- The reader misses nothing: it returns the well-formed types it is given, and hands back what
follows the parenthesis. -/
theorem readParameters_append {ts : List ValueType} (hts : ∀ t ∈ ts, t.WellFormed)
    (rest : List Char) :
    readParameters (ValueType.descriptors ts ++ ')' :: rest) = some (ts, rest) := by
  induction ts with
  | nil => exact readParameters_close rest
  | cons t ts ih =>
    obtain ⟨ht, hrest⟩ := List.forall_mem_cons.mp hts
    rw [ValueType.descriptors_cons, List.append_assoc,
      readParameters_of_head_ne (ValueType.head_descriptor_ne t _), ValueType.read_append ht]
    simp only [Option.bind_some, ih hrest, Option.map_some]

/-- The reader invents nothing: what it consumed is the descriptors of what it returned, all
well formed, and the parenthesis. -/
theorem eq_append_of_readParameters {cs rest : List Char} {ts : List ValueType}
    (h : readParameters cs = some (ts, rest)) :
    (∀ t ∈ ts, t.WellFormed) ∧ cs = ValueType.descriptors ts ++ ')' :: rest := by
  -- every parameter that is read leaves a shorter text
  induction hn : cs.length using Nat.strongRecOn generalizing cs ts with
  | ind n ih =>
    by_cases hhead : cs.head? = some ')'
    · obtain ⟨after, rfl⟩ := List.head?_eq_some_iff.mp hhead
      rw [readParameters_close, Option.some.injEq, Prod.mk.injEq] at h
      obtain ⟨rfl, rfl⟩ := h
      exact ⟨by simp, by simp [ValueType.descriptors_nil]⟩
    · rw [readParameters_of_head_ne hhead, Option.bind_eq_some_iff] at h
      obtain ⟨⟨t, after⟩, hread, hmap⟩ := h
      obtain ⟨⟨us, after'⟩, hus, heq⟩ := Option.map_eq_some_iff.mp hmap
      obtain ⟨rfl, rfl⟩ := Prod.mk.inj heq
      obtain ⟨ht, hcs⟩ := ValueType.eq_append_of_read hread
      obtain ⟨hall, hafter⟩ := ih _ (hn ▸ ValueType.length_read hread) hus rfl
      refine ⟨List.forall_mem_cons.mpr ⟨ht, hall⟩, ?_⟩
      rw [hcs, hafter, ValueType.descriptors_cons, List.append_assoc]

/-- A text is cut into descriptors of well-formed types in one way. -/
theorem descriptors_injective {ts us : List ValueType} (hts : ∀ t ∈ ts, t.WellFormed)
    (hus : ∀ t ∈ us, t.WellFormed) (h : ValueType.descriptors ts = ValueType.descriptors us) :
    ts = us := by
  have hread := readParameters_append hts []
  rw [h, readParameters_append hus [], Option.some.injEq, Prod.mk.injEq] at hread
  exact hread.1.symm

/-! ## Prototypes -/

theorem toList_descriptor (p : Prototype) :
    p.descriptor.toList =
      '(' :: (ValueType.descriptors p.parameters ++ ')' :: p.result.descriptor.toList) := by
  rw [descriptor, String.toList_append, String.toList_append, String.toList_append,
    ValueType.toList_join_descriptor, List.append_assoc, List.append_assoc]
  rfl

/-- What a reading of a prototype is made of. -/
theorem ofDescriptor?_eq_some_iff_read {s : String} {p : Prototype} :
    ofDescriptor? s = some p ↔ ∃ cs rest, s.toList = '(' :: cs ∧
      readParameters cs = some (p.parameters, rest) ∧
      ResultType.ofDescriptor? (String.ofList rest) = some p.result := by
  unfold ofDescriptor?
  split
  · rename_i cs hs
    simp only [Option.bind_eq_bind, Option.bind_eq_some_iff, Option.some.injEq, Prod.exists]
    constructor
    · rintro ⟨ts, rest, hread, r, hr, rfl⟩
      exact ⟨cs, rest, hs, hread, hr⟩
    · rintro ⟨cs', rest, hs', hread, hr⟩
      obtain rfl : cs = cs' := (List.cons.inj (hs.symm.trans hs')).2
      exact ⟨p.parameters, rest, hread, p.result, hr, rfl⟩
  · rename_i hs
    simp only [reduceCtorEq, false_iff]
    rintro ⟨cs, -, hcs, -⟩
    exact hs cs hcs

/-- A text is read as a prototype exactly if it is the descriptor of a well-formed one. -/
theorem ofDescriptor?_eq_some_iff {s : String} {p : Prototype} :
    ofDescriptor? s = some p ↔ p.WellFormed ∧ s = p.descriptor := by
  rw [ofDescriptor?_eq_some_iff_read]
  constructor
  · rintro ⟨cs, rest, hs, hread, hr⟩
    obtain ⟨hall, rfl⟩ := eq_append_of_readParameters hread
    obtain ⟨hresult, hrest⟩ := ResultType.ofDescriptor?_eq_some_iff.mp hr
    refine ⟨⟨hall, hresult⟩, String.toList_injective ?_⟩
    rw [hs, toList_descriptor, ← hrest, String.toList_ofList]
  · rintro ⟨hwf, rfl⟩
    refine ⟨_, p.result.descriptor.toList, toList_descriptor p,
      readParameters_append hwf.parameters _, ?_⟩
    rw [String.ofList_toList]
    exact ResultType.ofDescriptor?_eq_some_iff.mpr ⟨hwf.result, rfl⟩

-- the parentheses and the bracket belong to the name of the class
example : ofDescriptor? "(L)[(;[[I)V" = some ⟨[.object ⟨")[("⟩, ⟨2, .primitive .int⟩], .void⟩ :=
  ofDescriptor?_eq_some_iff.mpr ⟨by decide, by decide⟩

/-- The prototype with one parameter and no result is the type between parentheses. -/
theorem descriptor_singleton (t : ValueType) :
    (⟨[t], .void⟩ : Prototype).descriptor = "(" ++ t.descriptor ++ ")V" := by
  apply String.toList_injective
  rw [toList_descriptor]
  simp [ValueType.descriptors, ResultType.descriptor, String.toList_append]

/-- A text between the parentheses of a prototype with no result is read as one parameter
exactly if it is read as a type when it stands alone. -/
theorem ofDescriptor?_parenthesized {s : String} {t : ValueType} :
    ofDescriptor? ("(" ++ s ++ ")V") = some ⟨[t], .void⟩ ↔
      ValueType.ofDescriptor? s = some t := by
  have hwf : (⟨[t], .void⟩ : Prototype).WellFormed ↔ t.WellFormed :=
    ⟨fun h => h.parameters t (by simp), fun h => ⟨by simpa using h, trivial⟩⟩
  have hs : "(" ++ s ++ ")V" = "(" ++ t.descriptor ++ ")V" ↔ s = t.descriptor := by
    rw [String.append_left_inj, String.append_right_inj]
  rw [ofDescriptor?_eq_some_iff, ValueType.ofDescriptor?_eq_some_iff, descriptor_singleton, hwf,
    hs]

/-- The readers of types and of prototypes accept exactly what is printed of well-formed ones, a
text is cut into parameters in one way, and both read the same types. -/
theorem readers_accept_printed (s : String) :
    (∀ t, ValueType.ofDescriptor? s = some t ↔ t.WellFormed ∧ t.descriptor = s) ∧
    (∀ p, ofDescriptor? s = some p ↔ p.WellFormed ∧ p.descriptor = s) ∧
    (∀ ts us : List ValueType, (∀ t ∈ ts, t.WellFormed) → (∀ u ∈ us, u.WellFormed) →
      String.join (ts.map ValueType.descriptor) = s →
      String.join (us.map ValueType.descriptor) = s → ts = us) ∧
    ∀ t, ValueType.ofDescriptor? s = some t ↔
      ofDescriptor? ("(" ++ s ++ ")V") = some ⟨[t], .void⟩ := by
  refine ⟨fun t => ?types, fun p => ?prototypes, fun ts us hts hus htext hutext => ?split,
    fun t => ofDescriptor?_parenthesized.symm⟩
  case types => rw [ValueType.ofDescriptor?_eq_some_iff, eq_comm (a := s)]
  case prototypes => rw [ofDescriptor?_eq_some_iff, eq_comm (a := s)]
  case split =>
    refine descriptors_injective hts hus ?_
    rw [← ValueType.toList_join_descriptor, ← ValueType.toList_join_descriptor, htext, hutext]

end Prototype

end DexWeave
