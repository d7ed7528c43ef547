/-
  DexWeave/Proofs/CanonicalText.lean --- lists of transforms by their text.

  WHAT THIS FILE IS FOR.  A list of transforms is identified by the digest of a text, one line
  a transform.  The lines are made of names that nothing checks, put next to each other, so
  names can be chosen whose texts run into each other.  Names without the few characters that
  end a part of a line cannot: then the text has one reading.

  THE READING.  A line ends at the first newline, and a word at the first space; the first
  word says which transform it is and what the others are.  The owner of a method or hook
  ends at the first dot, and the name of a method at the first opening parenthesis; what is
  left is a descriptor, which is read in one way.
-/
import DexWeave.Proofs.PrototypeDescriptor
import DexWeave.Transform.Fingerprint
import Mathlib.Data.List.Basic

set_option autoImplicit false

namespace DexWeave

/-! ## Texts with marks -/

/-- What stands in front of the first mark and behind it is told apart. -/
theorem eq_of_append_mark {α : Type} {mark : α} {front front' back back' : List α}
    (h : mark ∉ front) (h' : mark ∉ front')
    (heq : front ++ mark :: back = front' ++ mark :: back') : front = front' ∧ back = back' := by
  induction front generalizing front' with
  | nil =>
    cases front' with
    | nil => exact ⟨rfl, (List.cons.inj heq).2⟩
    | cons x xs => exact absurd ((List.cons.inj heq).1 ▸ List.mem_cons_self) h'
  | cons x xs ih =>
    cases front' with
    | nil => exact absurd ((List.cons.inj heq).1 ▸ List.mem_cons_self) h
    | cons y ys =>
      obtain ⟨rfl, hrest⟩ := List.cons.inj heq
      obtain ⟨rfl, hback⟩ := ih (fun hx => h (List.mem_cons_of_mem _ hx))
        (fun hy => h' (List.mem_cons_of_mem _ hy)) hrest
      exact ⟨rfl, hback⟩

/-- Parts that are each closed by a mark, and do not hold it, are told apart. -/
theorem eq_of_flatMap_closed {α β : Type} {mark : α} {part : β → List α} {xs ys : List β}
    (hinj : ∀ x ∈ xs, ∀ y ∈ ys, part x = part y → x = y)
    (hxs : ∀ x ∈ xs, mark ∉ part x) (hys : ∀ y ∈ ys, mark ∉ part y)
    (h : xs.flatMap (fun x => part x ++ [mark]) = ys.flatMap fun y => part y ++ [mark]) :
    xs = ys := by
  induction xs generalizing ys with
  | nil =>
    cases ys with
    | nil => rfl
    | cons y ys => simp at h
  | cons x xs ih =>
    cases ys with
    | nil => simp at h
    | cons y ys =>
      obtain ⟨hx, hxs⟩ := List.forall_mem_cons.mp hxs
      obtain ⟨hy, hys⟩ := List.forall_mem_cons.mp hys
      simp only [List.flatMap_cons, List.append_assoc, List.singleton_append] at h
      obtain ⟨hpart, hrest⟩ := eq_of_append_mark hx hy h
      rw [hinj x List.mem_cons_self y List.mem_cons_self hpart, ih ?_ hxs hys hrest]
      exact fun x' hx' y' hy' => hinj x' (List.mem_cons_of_mem _ hx') y' (List.mem_cons_of_mem _ hy')

/-- None of the characters occurs in the text. -/
def Avoids (marks : List Char) (s : String) : Prop := ∀ x ∈ marks, x ∉ s.toList

-- the general instance for a quantifier over characters would try all of them
instance (marks : List Char) (s : String) : Decidable (Avoids marks s) :=
  List.decidableBAll (fun x => x ∉ s.toList) marks

theorem avoids_cons {mark : Char} {marks : List Char} {s : String} :
    Avoids (mark :: marks) s ↔ mark ∉ s.toList ∧ Avoids marks s :=
  List.forall_mem_cons

theorem avoids_append {marks : List Char} {s s' : String} :
    Avoids marks (s ++ s') ↔ Avoids marks s ∧ Avoids marks s' := by
  simp only [Avoids, String.toList_append, List.mem_append, not_or, forall_and]

theorem Utf8.encode_injective {s s' : String} (h : encode s = encode s') : s = s' := by
  have hdecode := decode?_eq_some_iff.mpr h
  rw [decode?_eq_some_iff.mpr rfl] at hdecode
  exact (Option.some.inj hdecode).symm

/-! ## Names -/

/-- The characters that end a word, and the line it stands in. -/
def wordMarks : List Char := [' ', '\n']

/-- The characters that end a class name, or the word it stands in. -/
def classMarks : List Char := '.' :: wordMarks

/-- The characters that end the name of a method, or the word it stands in. -/
def methodMarks : List Char := '(' :: wordMarks

/-- The class a type is an instance of, or an array of. -/
def ValueType.class? (t : ValueType) : Option ClassName :=
  match t.element with
  | .primitive _ => none
  | .object c => some c

/-- The classes that the types of a prototype name. -/
def Prototype.classes (p : Prototype) : List ClassName :=
  p.parameters.filterMap ValueType.class? ++
    match p.result with
    | .value t => t.class?.toList
    | .void => []

/-- A method whose parts are told apart in a line. -/
structure MethodRef.Plain (m : MethodRef) : Prop where
  owner : Avoids classMarks m.owner.text
  name : Avoids methodMarks m.name
  parsed : ∃ s, Prototype.ofDescriptor? s = some m.prototype
  classes : ∀ c ∈ m.prototype.classes, Avoids classMarks c.text

/-- A hook whose parts are told apart in a line. -/
structure HookRef.Plain (h : HookRef) : Prop where
  owner : Avoids classMarks h.owner.text
  name : Avoids methodMarks h.name

namespace Transform

/-- The method whose calls are redirected, in a detour. -/
def callee? (t : Transform) : Option MethodRef :=
  match t.action with
  | .detour _ callee => some callee
  | _ => none

/-- A transform whose methods and hook are told apart in a line. -/
structure Plain (t : Transform) : Prop where
  target : t.target.Plain
  hook : t.hook.Plain
  callee : ∀ m, t.callee? = some m → m.Plain

end Transform

/-! ## Methods and hooks -/

/-- What a descriptor is made of besides names. -/
def descriptorMarks : String := "()[L;VZCFDBSIJ"

theorem ValueType.mem_descriptor {t : ValueType} {x : Char} (h : x ∈ t.descriptor.toList) :
    x ∈ descriptorMarks.toList ∨ ∃ c, t.class? = some c ∧ x ∈ c.text.toList := by
  rw [toList_descriptor, List.mem_append, List.mem_replicate] at h
  rcases h with ⟨-, rfl⟩ | h
  · exact .inl (by decide)
  · unfold class?
    cases helement : t.element with
    | primitive p =>
      rw [helement, ElementType.toList_descriptor_primitive, List.mem_singleton] at h
      subst h
      exact .inl (by cases p <;> decide)
    | object c =>
      rw [helement, ElementType.descriptor, ClassName.toList_descriptor, List.mem_cons,
        List.mem_append, List.mem_singleton] at h
      rcases h with rfl | h | rfl
      · exact .inl (by decide)
      · exact .inr ⟨c, rfl, h⟩
      · exact .inl (by decide)

theorem Prototype.mem_descriptor {p : Prototype} {x : Char} (h : x ∈ p.descriptor.toList) :
    x ∈ descriptorMarks.toList ∨ ∃ c ∈ p.classes, x ∈ c.text.toList := by
  rw [toList_descriptor, List.mem_cons, List.mem_append, List.mem_cons] at h
  rcases h with rfl | hparameter | rfl | hresult
  · exact .inl (by decide)
  · obtain ⟨t, ht, hx⟩ := List.mem_flatMap.mp hparameter
    refine (ValueType.mem_descriptor hx).imp_right fun ⟨c, hc, hxc⟩ => ⟨c, ?_, hxc⟩
    exact List.mem_append_left _ (List.mem_filterMap.mpr ⟨t, ht, hc⟩)
  · exact .inl (by decide)
  · cases hr : p.result with
    | value t =>
      rw [hr] at hresult
      refine (ValueType.mem_descriptor hresult).imp_right fun ⟨c, hc, hxc⟩ => ⟨c, ?_, hxc⟩
      rw [classes, hr]
      exact List.mem_append_right _ (by simp [hc])
    | void =>
      rw [hr, ResultType.descriptor] at hresult
      have hx : x = 'V' := by simpa using hresult
      subst hx
      exact .inl (by decide)

theorem Prototype.descriptor_injective {p p' : Prototype}
    (hp : ∃ s, ofDescriptor? s = some p) (hp' : ∃ s, ofDescriptor? s = some p')
    (h : p.descriptor = p'.descriptor) : p = p' := by
  obtain ⟨s, hp⟩ := hp
  obtain ⟨s', hp'⟩ := hp'
  have hread := ofDescriptor?_eq_some_iff.mpr ⟨(ofDescriptor?_eq_some_iff.mp hp).1, rfl⟩
  have hread' := ofDescriptor?_eq_some_iff.mpr ⟨(ofDescriptor?_eq_some_iff.mp hp').1, rfl⟩
  rw [h, hread'] at hread
  exact (Option.some.inj hread).symm

theorem MethodRef.toList_display (m : MethodRef) :
    m.display.toList = m.owner.text.toList ++ '.' :: (m.name.toList ++
      '(' :: m.prototype.descriptor.toList.tail) := by
  rw [display, String.toList_append, String.toList_append, String.toList_append,
    List.append_assoc, List.append_assoc, Prototype.toList_descriptor]
  rfl

namespace MethodRef.Plain

variable {m m' : MethodRef}

/-- The text of the method is one word. -/
theorem avoids_display (h : m.Plain) : Avoids wordMarks m.display := by
  have hdescriptor : Avoids wordMarks m.prototype.descriptor := by
    intro x hx hmem
    rcases Prototype.mem_descriptor hmem with hmark | ⟨c, hc, hxc⟩
    · exact (by decide : Avoids wordMarks descriptorMarks) x hx hmark
    · exact (avoids_cons.mp (h.classes c hc)).2 x hx hxc
  rw [display, avoids_append, avoids_append, avoids_append]
  exact ⟨⟨⟨(avoids_cons.mp h.owner).2, by decide⟩, (avoids_cons.mp h.name).2⟩, hdescriptor⟩

/-- The owner ends at the first dot and the name at the first parenthesis. -/
theorem eq_of_display (h : m.Plain) (h' : m'.Plain) (heq : m.display = m'.display) : m = m' := by
  have hlist := congrArg String.toList heq
  rw [toList_display, toList_display] at hlist
  obtain ⟨howner, hrest⟩ :=
    eq_of_append_mark (avoids_cons.mp h.owner).1 (avoids_cons.mp h'.owner).1 hlist
  obtain ⟨hname, htail⟩ :=
    eq_of_append_mark (avoids_cons.mp h.name).1 (avoids_cons.mp h'.name).1 hrest
  have hdescriptor : m.prototype.descriptor = m'.prototype.descriptor := by
    apply String.toList_injective
    rw [Prototype.toList_descriptor, Prototype.toList_descriptor] at htail ⊢
    exact congrArg ('(' :: ·) htail
  have hprototype := Prototype.descriptor_injective h.parsed h'.parsed hdescriptor
  obtain ⟨⟨owner⟩, name, prototype⟩ := m
  obtain ⟨⟨owner'⟩, name', prototype'⟩ := m'
  obtain rfl := String.toList_injective howner
  obtain rfl := String.toList_injective hname
  obtain rfl := hprototype
  rfl

end MethodRef.Plain

namespace HookRef.Plain

variable {h h' : HookRef}

/-- The text of the hook is one word. -/
theorem avoids_display (hh : h.Plain) : Avoids wordMarks h.display := by
  rw [display, avoids_append, avoids_append]
  exact ⟨⟨(avoids_cons.mp hh.owner).2, by decide⟩, (avoids_cons.mp hh.name).2⟩

/-- The owner ends at the first dot. -/
theorem eq_of_display (hh : h.Plain) (hh' : h'.Plain) (heq : h.display = h'.display) :
    h = h' := by
  have hlist := congrArg String.toList heq
  simp only [display, String.toList_append, List.append_assoc] at hlist
  obtain ⟨howner, hname⟩ :=
    eq_of_append_mark (avoids_cons.mp hh.owner).1 (avoids_cons.mp hh'.owner).1 hlist
  obtain ⟨⟨owner⟩, name⟩ := h
  obtain ⟨⟨owner'⟩, name'⟩ := h'
  obtain rfl := String.toList_injective howner
  obtain rfl := String.toList_injective hname
  rfl

end HookRef.Plain

/-! ## Lines -/

/-- What the first word of the text of a transform tells. -/
inductive Form where
  | entry
  | exit
  | parameter
  | detour (kind : DetourKind)

namespace Form

/-- The first word of the text of a transform. -/
def keyword : Form → String
  | entry => "entry-hook"
  | exit => "exit-hook"
  | parameter => "modify-parameter"
  | detour kind => "detour-" ++ kind.display

theorem keyword_injective {f f' : Form} (h : f.keyword = f'.keyword) : f = f' := by
  cases f with
  | entry | exit | parameter =>
    cases f' with
    | entry | exit | parameter => first | rfl | exact absurd h (by decide)
    | detour kind => cases kind <;> exact absurd h (by decide)
  | detour kind =>
    cases f' with
    | entry | exit | parameter => cases kind <;> exact absurd h (by decide)
    | detour kind' => cases kind <;> cases kind' <;> first | rfl | exact absurd h (by decide)

theorem avoids_keyword (f : Form) : Avoids wordMarks f.keyword := by
  cases f with
  | entry | exit | parameter => decide
  | detour kind => cases kind <;> decide

end Form

/-- What the first word tells of an action. -/
def HookAction.form : HookAction → Form
  | .entry _ => .entry
  | .exit => .exit
  | .parameter _ => .parameter
  | .detour kind _ => .detour kind

namespace Transform

variable {t t' : Transform} {ts ts' : List Transform}

/-- The words of the text of a transform. -/
def words (t : Transform) : List String :=
  let target := t.target.display
  let hook := t.hook.display
  t.action.form.keyword ::
    match t.action with
    | .entry thisAsObject =>
      [target, "->", hook] ++ if thisAsObject then ["(this", "as", "object)"] else []
    | .exit => [target, "->", hook]
    | .parameter index => [target, "#" ++ toString index, "->", hook]
    | .detour _ callee => [callee.display, "in", target, "->", hook]

/-- The text of a transform is its words, each but the last with a space behind it. -/
theorem display_eq_words (t : Transform) :
    t.display.toList ++ [' '] = t.words.flatMap fun w => w.toList ++ [' '] := by
  obtain ⟨target, action, hook⟩ := t
  cases action with
  | entry thisAsObject =>
    cases thisAsObject <;> simp [display, words, HookAction.form, Form.keyword]
  | exit => simp [display, words, HookAction.form, Form.keyword]
  | parameter index => simp [display, words, HookAction.form, Form.keyword]
  | detour kind callee =>
    cases kind <;> simp [display, words, HookAction.form, Form.keyword, DetourKind.display]

theorem avoids_index (index : Nat) : Avoids wordMarks ("#" ++ toString index) := by
  rw [avoids_append]
  refine ⟨by decide, fun x hx hmem => ?_⟩
  rw [Nat.toString_eq_ofList_toDigits, String.toList_ofList] at hmem
  have hdigit := Nat.isDigit_of_mem_toDigits (by decide) (by decide) hmem
  rcases List.mem_pair.mp hx with rfl | rfl
  · exact absurd hdigit (by decide)
  · exact absurd hdigit (by decide)

theorem eq_of_display_index {index index' : Nat}
    (h : "#" ++ toString index = "#" ++ toString index') : index = index' := by
  have hdigits := congrArg String.toList h
  rw [String.toList_append, String.toList_append] at hdigits
  have hsame := List.append_cancel_left hdigits
  rw [Nat.toString_eq_ofList_toDigits, Nat.toString_eq_ofList_toDigits, String.toList_ofList,
    String.toList_ofList] at hsame
  rw [← Nat.ofDigitChars_ten_toDigits (n := index), hsame, Nat.ofDigitChars_ten_toDigits]

/-- No word holds a space or a newline. -/
theorem Plain.avoids_words (h : t.Plain) : ∀ w ∈ t.words, Avoids wordMarks w := by
  have htarget := h.target.avoids_display
  have hhook := h.hook.avoids_display
  have hcallee := h.callee
  have hkeyword := t.action.form.avoids_keyword
  obtain ⟨target, action, hook⟩ := t
  cases action with
  | entry thisAsObject =>
    have hend : ∀ w ∈ (if thisAsObject then ["(this", "as", "object)"] else []),
        Avoids wordMarks w := by
      cases thisAsObject <;> decide
    simp only [words, List.forall_mem_append, List.forall_mem_cons]
    exact ⟨hkeyword, ⟨htarget, by decide, hhook, nofun⟩, hend⟩
  | exit =>
    simp only [words, List.forall_mem_cons]
    exact ⟨hkeyword, htarget, by decide, hhook, nofun⟩
  | parameter index =>
    simp only [words, List.forall_mem_cons]
    exact ⟨hkeyword, htarget, avoids_index index, by decide, hhook, nofun⟩
  | detour kind callee =>
    simp only [words, List.forall_mem_cons]
    exact ⟨hkeyword, (hcallee callee rfl).avoids_display, by decide, htarget, by decide, hhook,
      nofun⟩

/-- The first word says what the others are. -/
theorem Plain.eq_of_words (h : t.Plain) (h' : t'.Plain) (heq : t.words = t'.words) : t = t' := by
  have htarget := h.target.eq_of_display h'.target
  have hhook := h.hook.eq_of_display h'.hook
  have hcallee := h.callee
  have hcallee' := h'.callee
  obtain ⟨target, action, hook⟩ := t
  obtain ⟨target', action', hook'⟩ := t'
  obtain ⟨hkeyword, hrest⟩ := List.cons.inj heq
  have hform : action.form = action'.form := Form.keyword_injective hkeyword
  cases action with
  | entry thisAsObject =>
    cases action' with
    | entry thisAsObject' =>
      simp only [List.cons_append, List.nil_append, List.cons.injEq, true_and] at hrest
      obtain ⟨ht, hh, hend⟩ := hrest
      obtain rfl := htarget ht
      obtain rfl := hhook hh
      have hflag : thisAsObject = thisAsObject' := by
        revert hend
        cases thisAsObject <;> cases thisAsObject' <;> decide
      rw [hflag]
    | _ => cases hform
  | exit =>
    cases action' with
    | exit =>
      simp only [List.cons.injEq, true_and, and_true] at hrest
      obtain ⟨ht, hh⟩ := hrest
      obtain rfl := htarget ht
      obtain rfl := hhook hh
      rfl
    | _ => cases hform
  | parameter index =>
    cases action' with
    | parameter index' =>
      simp only [List.cons.injEq, true_and, and_true] at hrest
      obtain ⟨ht, hi, hh⟩ := hrest
      obtain rfl := htarget ht
      obtain rfl := hhook hh
      obtain rfl := eq_of_display_index hi
      rfl
    | _ => cases hform
  | detour kind callee =>
    cases action' with
    | detour kind' callee' =>
      simp only [List.cons.injEq, true_and, and_true] at hrest
      obtain ⟨hc, ht, hh⟩ := hrest
      obtain rfl := htarget ht
      obtain rfl := hhook hh
      obtain rfl := (hcallee callee rfl).eq_of_display (hcallee' callee' rfl) hc
      obtain rfl := Form.detour.inj hform
      rfl
    | _ => cases hform

/-- A transform is known from its text. -/
theorem Plain.eq_of_display (h : t.Plain) (h' : t'.Plain) (heq : t.display = t'.display) :
    t = t' := by
  have hclosed := congrArg (fun s => s.toList ++ [' ']) heq
  simp only [display_eq_words] at hclosed
  refine h.eq_of_words h' (eq_of_flatMap_closed (fun w _ w' _ => String.toList_injective)
    (fun w hw => ?_) (fun w hw => ?_) hclosed)
  · exact h.avoids_words w hw ' ' (by decide)
  · exact h'.avoids_words w hw ' ' (by decide)

/-- The text of a transform is one line. -/
theorem Plain.newline_not_mem_display (h : t.Plain) : '\n' ∉ t.display.toList := by
  intro hmem
  have hwords : '\n' ∈ t.words.flatMap fun w => w.toList ++ [' '] := by
    rw [← display_eq_words]
    exact List.mem_append_left _ hmem
  obtain ⟨w, hw, hmem⟩ := List.mem_flatMap.mp hwords
  rcases List.mem_append.mp hmem with hmem | hspace
  · exact h.avoids_words w hw '\n' (by decide) hmem
  · exact absurd hspace (by decide)

/-! ## Lists -/

theorem toList_canonicalText (ts : List Transform) :
    (canonicalText ts).toList = ts.flatMap fun t => t.display.toList ++ ['\n'] := by
  rw [canonicalText, String.toList_join, List.flatMap_map]
  simp only [String.toList_append]
  rfl

/-- The bytes that the digest of a list is taken of identify the list, when no name holds a
mark: lists with other transforms, or with the same ones in another order, have other bytes. -/
theorem canonicalText_eq_iff (hts : ∀ t ∈ ts, t.Plain) (hts' : ∀ t ∈ ts', t.Plain) :
    Utf8.encode (canonicalText ts) = Utf8.encode (canonicalText ts') ↔ ts = ts' := by
  refine ⟨fun heq => ?_, fun heq => by rw [heq]⟩
  have hlines := congrArg String.toList (Utf8.encode_injective heq)
  rw [toList_canonicalText, toList_canonicalText] at hlines
  refine eq_of_flatMap_closed (fun t ht t' ht' hdisplay => ?_)
    (fun t ht => (hts t ht).newline_not_mem_display)
    (fun t ht => (hts' t ht).newline_not_mem_display) hlines
  exact (hts t ht).eq_of_display (hts' t' ht') (String.toList_injective hdisplay)

/-- A method of one parameter, of a class the program brings along. -/
def savedStateMethod : MethodRef :=
  ⟨⟨"app/Main"⟩, "onCreate", ⟨[⟨0, .object ⟨"android/os/Bundle"⟩⟩], .void⟩⟩

/-- An entry hook that takes the receiver as an object. -/
def watchedEntry : Transform :=
  ⟨savedStateMethod, .entry true, ⟨⟨"hooks/Entry"⟩, "before"⟩⟩

/-- A redirection of the calls of a system method. -/
def watchedCall : Transform :=
  ⟨savedStateMethod, .detour .virtual ⟨⟨"android/app/Activity"⟩, "finish", ⟨[], .void⟩⟩,
    ⟨⟨"hooks/Calls"⟩, "finish"⟩⟩

theorem savedStateMethod_plain : savedStateMethod.Plain where
  owner := by decide
  name := by decide
  parsed := ⟨"(Landroid/os/Bundle;)V", Prototype.ofDescriptor?_eq_some_iff.mpr (by decide)⟩
  classes := by decide

theorem watchedEntry_plain : watchedEntry.Plain where
  target := savedStateMethod_plain
  hook := ⟨by decide, by decide⟩
  callee := nofun

theorem watchedCall_plain : watchedCall.Plain where
  target := savedStateMethod_plain
  hook := ⟨by decide, by decide⟩
  callee m hm := by
    obtain rfl := Option.some.inj hm
    exact ⟨by decide, by decide, ⟨"()V", Prototype.ofDescriptor?_eq_some_iff.mpr (by decide)⟩,
      by decide⟩

theorem Plain.pair (h : t.Plain) (h' : t'.Plain) : ∀ u ∈ [t, t'], u.Plain := by
  intro u hu
  rcases List.mem_pair.mp hu with rfl | rfl
  · exact h
  · exact h'

theorem canonicalText_tells_order :
    (∀ t ∈ [watchedEntry, watchedCall], t.Plain) ∧
    (∀ t ∈ [watchedCall, watchedEntry], t.Plain) ∧
    Utf8.encode (canonicalText [watchedEntry, watchedCall]) ≠
      Utf8.encode (canonicalText [watchedCall, watchedEntry]) := by
  have hplain := watchedEntry_plain.pair watchedCall_plain
  have hplain' := watchedCall_plain.pair watchedEntry_plain
  refine ⟨hplain, hplain', fun heq => ?_⟩
  exact absurd ((canonicalText_eq_iff hplain hplain').mp heq) (by decide)

/-- Without the condition on dots, two methods can share a text. -/
example : MethodRef.display ⟨⟨"app.Main"⟩, "run", ⟨[], .void⟩⟩ =
    MethodRef.display ⟨⟨"app"⟩, "Main.run", ⟨[], .void⟩⟩ := by
  decide

end Transform

end DexWeave
