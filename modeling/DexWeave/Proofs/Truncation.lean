/-
  DexWeave/Proofs/Truncation.lean --- items that are cut short.

  WHAT THIS FILE IS FOR.  Every stored item says how long it is before it is over.  So a
  reader that is given only the front of a written item reads all parts that are whole, as
  they were written, and then finds the bytes at their end: no front of an item is an item,
  and none is taken for a damaged one.

  HOW.  `Format.CutShort` is kept by every combinator.  The front of two parts ends inside the
  first, or holds the first whole and the front of the second (`CutShort.read_front`).
-/
import DexWeave.Stored.Container
import Mathlib.Data.List.Basic

set_option autoImplicit false

namespace DexWeave

namespace Format

variable {α β τ : Type}

/-! ## Taking bytes -/

theorem takeExactly_of_le {n : Nat} {bs : Bytes} (h : n ≤ bs.length) :
    takeExactly n bs = some (bs.take n, bs.drop n) := by
  have htake := takeExactly_append (bs.take n) (bs.drop n)
  rwa [List.length_take_of_le h, List.take_append_drop] at htake

theorem takeExactly_of_lt {n : Nat} {bs : Bytes} (h : bs.length < n) :
    takeExactly n bs = none := by
  refine Option.eq_none_iff_forall_ne_some.mpr fun ⟨taken, rest⟩ htake => ?_
  obtain ⟨rfl, hlength⟩ := eq_append_of_takeExactly htake
  rw [List.length_append] at h
  omega

theorem length_front_lt {front back : Bytes} (h : back ≠ []) :
    front.length < (front ++ back).length := by
  rw [List.length_append]
  exact Nat.lt_add_of_pos_right (List.length_pos_of_ne_nil h)

/-! ## Combinators -/

/-- A proper front of what was written is read up to its end, and found too short. -/
structure CutShort (f : Format α) : Prop where
  read_eq : ∀ {a : α} {front back : Bytes}, f.write a = some (front ++ back) → back ≠ [] →
    f.read front = .error .endOfInput

namespace CutShort

variable {f : Format α} {a : α} {w w' front back : Bytes}

/-- The front of two parts ends inside the first, or holds it whole and the front of the
second. -/
theorem read_front (hf : f.CutShort) (hexact : f.Exact) (hwrite : f.write a = some w)
    (hcut : w ++ w' = front ++ back) :
    f.read front = .error .endOfInput ∨
      ∃ inner, f.read front = .ok (a, inner) ∧ w' = inner ++ back := by
  rcases List.append_eq_append_iff.mp hcut with ⟨inner, rfl, hback⟩ | ⟨inner, rfl, hback⟩
  · exact .inr ⟨inner, hexact.read_write inner hwrite, hback⟩
  · by_cases hinner : inner = []
    · subst hinner
      rw [List.append_nil] at hwrite
      have hread := hexact.read_write [] hwrite
      rw [List.append_nil] at hread
      exact .inr ⟨[], hread, hback.symm⟩
    · exact .inl (hf.read_eq hwrite hinner)

theorem number (width : Nat) : (Format.number width).CutShort where
  read_eq := by
    intro n front back hwrite hne
    simp only [Format.number] at hwrite ⊢
    split at hwrite
    · have hlength := LittleEndian.length_digits width n
      rw [Option.some.inj hwrite] at hlength
      rw [takeExactly_of_lt (hlength ▸ length_front_lt hne)]
    · cases hwrite

theorem map (hf : f.CutShort) (pack : α → β) (unpack : β → α) : (f.map pack unpack).CutShort where
  read_eq := by
    intro b front back hwrite hne
    simp only [Format.map, hf.read_eq hwrite hne]

theorem refine (hf : f.CutShort) (pack : α → Except DecodeError β) (unpack : β → α) :
    (f.refine pack unpack).CutShort where
  read_eq := by
    intro b front back hwrite hne
    simp only [Format.refine, hf.read_eq hwrite hne]

theorem unit : Format.unit.CutShort where
  read_eq := by
    intro a front back hwrite hne
    have hnil := List.append_eq_nil_iff.mp (Option.some.inj hwrite).symm
    exact absurd hnil.2 hne

theorem tagged {γ : τ → Type} {tag : Format τ} {body : (t : τ) → Format (γ t)}
    (htag : tag.CutShort) (hexact : tag.Exact) (hbody : ∀ t, (body t).CutShort) :
    (tag.tagged body).CutShort where
  read_eq := by
    intro v front back hwrite hne
    simp only [Format.tagged] at hwrite ⊢
    split at hwrite
    · rename_i w₁ w₂ h₁ h₂
      rcases htag.read_front hexact h₁ (Option.some.inj hwrite) with hread | ⟨inner, hread, rfl⟩
      · simp only [hread]
      · simp only [hread, (hbody v.1).read_eq h₂ hne]
    · cases hwrite

theorem pair (hf : f.CutShort) (hexact : f.Exact) {g : Format β} (hg : g.CutShort) :
    (f.pair g).CutShort :=
  (tagged hf hexact fun _ => hg).map _ _

theorem optional (hf : f.CutShort) : f.optional.CutShort where
  read_eq := by
    rintro (_ | a) front back hwrite hne
    · have hempty : front = [] := by
        have hlength := congrArg List.length (Option.some.inj hwrite)
        rw [List.length_append, List.length_singleton] at hlength
        have hpos := List.length_pos_of_ne_nil hne
        exact List.eq_nil_of_length_eq_zero (by omega)
      subst hempty
      rfl
    · simp only [Format.optional, Option.map_eq_some_iff] at hwrite ⊢
      obtain ⟨w, hw, hcut⟩ := hwrite
      cases front with
      | nil => rfl
      | cons b front =>
        obtain ⟨rfl, rfl⟩ := List.cons.inj hcut
        have hflag : (Format.number 1).read (1 :: front) = .ok (1, front) := rfl
        simp only [hflag, hf.read_eq hw hne]

theorem readMany (hf : f.CutShort) (hexact : f.Exact) {as : List α} {front back : Bytes}
    (hwrite : f.writeMany as = some (front ++ back)) (hne : back ≠ []) :
    f.readMany as.length front = .error .endOfInput := by
  induction as generalizing front with
  | nil =>
    have hnil := List.append_eq_nil_iff.mp (Option.some.inj hwrite).symm
    exact absurd hnil.2 hne
  | cons a as ih =>
    simp only [writeMany] at hwrite
    rw [List.length_cons, Format.readMany]
    split at hwrite
    · rename_i w₁ w₂ h₁ h₂
      rcases hf.read_front hexact h₁ (Option.some.inj hwrite) with hread | ⟨inner, hread, rfl⟩
      · simp only [hread]
      · simp only [hread, ih h₂]
    · cases hwrite

theorem counted (hf : f.CutShort) (hexact : f.Exact) (width : Nat) :
    (f.counted width).CutShort where
  read_eq := by
    intro as front back hwrite hne
    simp only [Format.counted] at hwrite ⊢
    split at hwrite
    · rename_i w₁ w₂ h₁ h₂
      rcases (number width).read_front (number_exact width) h₁ (Option.some.inj hwrite) with
        hread | ⟨inner, hread, rfl⟩
      · simp only [hread]
      · simp only [hread, hf.readMany hexact h₂ hne]
    · cases hwrite

end CutShort

/-! ## Words and texts -/

theorem u8_cutShort : u8.CutShort := (CutShort.number 1).map _ _

theorem u16_cutShort : u16.CutShort := (CutShort.number 2).map _ _

theorem u32_cutShort : u32.CutShort := (CutShort.number 4).map _ _

theorem u64_cutShort : u64.CutShort := (CutShort.number 8).map _ _

theorem i32_cutShort : i32.CutShort := u32_cutShort.map _ _

theorem i64_cutShort : i64.CutShort := u64_cutShort.map _ _

theorem register_cutShort : register.CutShort := u16_cutShort.map _ _

/-- What bytes stand for no text is found out only once all of them are there. -/
theorem text_cutShort : text.CutShort where
  read_eq := by
    intro s front back hwrite hne
    obtain ⟨w, hw, hcut⟩ := Option.map_eq_some_iff.mp hwrite
    simp only [text]
    rcases (CutShort.number 4).read_front (number_exact 4) hw hcut with
      hread | ⟨inner, hread, hinner⟩
    · simp only [hread]
    · have hlength : inner.length < (Utf8.encode s).length := by
        rw [hinner]
        exact length_front_lt hne
      simp only [hread, takeExactly_of_lt hlength]

end Format

/-! ## Parts of a container -/

theorem Opcode.format_cutShort : Opcode.format.CutShort := Format.u8_cutShort.refine _ _

theorem Opcode.operands_cutShort (o : Opcode) : o.operands.CutShort := by
  have hregister := Format.register_cutShort
  have hexact := Format.register_exact
  cases o
  case nop | returnVoid => exact .unit
  case move => exact hregister.pair hexact hregister
  case moveResult | returnValue | throw => exact hregister
  case const | branchZero => exact hregister.pair hexact Format.i32_cutShort
  case constWide => exact hregister.pair hexact Format.i64_cutShort
  case constString | newInstance => exact hregister.pair hexact Format.u32_cutShort
  case goto => exact Format.i32_cutShort
  case branch =>
    exact hregister.pair hexact (hregister.pair hexact Format.i32_cutShort)
  case binary => exact hregister.pair hexact (hregister.pair hexact hregister)
  case invoke =>
    exact Format.u32_cutShort.pair Format.u32_exact (hregister.counted hexact 1)

theorem StoredInstruction.format_cutShort : StoredInstruction.format.CutShort :=
  (Opcode.format_cutShort.tagged Opcode.format_exact Opcode.operands_cutShort).map _ _

section Fields

variable {α : Type} {f : Format α}

theorem Format.CutShort.behindU16 (hf : f.CutShort) : (Format.u16.pair f).CutShort :=
  Format.u16_cutShort.pair Format.u16_exact hf

theorem Format.CutShort.behindU32 (hf : f.CutShort) : (Format.u32.pair f).CutShort :=
  Format.u32_cutShort.pair Format.u32_exact hf

end Fields

theorem StoredBody.format_cutShort : StoredBody.format.CutShort :=
  (StoredInstruction.format_cutShort.counted StoredInstruction.format_exact
    4).behindU16.behindU16.behindU16.map _ _

theorem StoredMethod.format_cutShort : StoredMethod.format.CutShort :=
  StoredBody.format_cutShort.optional.behindU32.behindU32.map _ _

theorem StoredClass.format_cutShort : StoredClass.format.CutShort :=
  (StoredMethod.format_cutShort.counted StoredMethod.format_exact
    4).behindU32.behindU32.behindU32.map _ _

theorem StoredProto.format_cutShort : StoredProto.format.CutShort :=
  (Format.u32_cutShort.counted Format.u32_exact 2).behindU32.map _ _

theorem StoredMethodId.format_cutShort : StoredMethodId.format.CutShort :=
  Format.u32_cutShort.behindU32.behindU32.map _ _

theorem Pools.format_cutShort : Pools.format.CutShort := by
  have hstrings := Format.text_cutShort.counted Format.text_exact 4
  have htypes := Format.u32_cutShort.counted Format.u32_exact 4
  have hprotos := StoredProto.format_cutShort.counted StoredProto.format_exact 4
  have hmethods := StoredMethodId.format_cutShort.counted StoredMethodId.format_exact 4
  exact (hstrings.pair (Format.counted_exact Format.text_exact 4)
    (htypes.pair (Format.counted_exact Format.u32_exact 4)
      (hprotos.pair (Format.counted_exact StoredProto.format_exact 4) hmethods))).map _ _

theorem Container.content_cutShort : Container.content.CutShort :=
  (Pools.format_cutShort.pair Pools.format_exact
    (StoredClass.format_cutShort.counted StoredClass.format_exact 4)).map _ _

end DexWeave
