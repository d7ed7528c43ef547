/-
  DexWeave/Proofs/Layout.lean --- the bytes of containers.

  WHAT THIS FILE IS FOR.  Formats are put together from combinators, so their bytes are
  nowhere in sight.  Here the layout of a container is written out as plain functions to
  bytes, with the counts that have to fit their fields, and the formats are proved to
  write exactly these bytes of exactly these values.

  WHAT IS PROVED.  The container format is a bijection between the containers whose
  counts fit and the byte strings that are accepted; so is the format of instructions.
-/
import DexWeave.Stored.Container
import DexWeave.Proofs.Traverse

set_option autoImplicit false

namespace DexWeave

/-! ## What a format writes -/

namespace Format

variable {α β τ : Type}

/-- The format writes the values that fit, as the given bytes, and no others. -/
def Writes (f : Format α) (fits : α → Prop) (bytes : α → Bytes) : Prop :=
  ∀ a w, f.write a = some w ↔ fits a ∧ w = bytes a

namespace Writes

variable {f : Format α} {fits : α → Prop} {bytes : α → Bytes}

theorem write_eq (h : f.Writes fits bytes) {a : α} (ha : fits a) : f.write a = some (bytes a) :=
  (h a _).mpr ⟨ha, rfl⟩

/-- An exact format reads what fits, and nothing else. -/
theorem read_eq_ok_iff (h : f.Writes fits bytes) (hf : f.Exact) {bs rest : Bytes} {a : α} :
    f.read bs = .ok (a, rest) ↔ fits a ∧ bs = bytes a ++ rest := by
  constructor
  · intro hread
    obtain ⟨w, hw, rfl⟩ := hf.write_read hread
    obtain ⟨ha, rfl⟩ := (h a w).mp hw
    exact ⟨ha, rfl⟩
  · rintro ⟨ha, rfl⟩
    exact hf.read_write rest (h.write_eq ha)

theorem number (width : Nat) :
    (Format.number width).Writes (· < LittleEndian.capacity width) (LittleEndian.digits width) := by
  intro n w
  simp only [Format.number]
  split
  · rename_i hn
    rw [Option.some.injEq, and_iff_right hn, eq_comm]
  · rename_i hn
    exact ⟨fun h => (by cases h), fun h => absurd h.1 hn⟩

theorem map (h : f.Writes fits bytes) (pack : α → β) (unpack : β → α) :
    (f.map pack unpack).Writes (fun b => fits (unpack b)) (fun b => bytes (unpack b)) :=
  fun b w => h (unpack b) w

theorem unit : Format.unit.Writes (fun _ => True) (fun _ => []) := by
  intro a w
  rw [Format.unit, Option.some.injEq, and_iff_right trivial, eq_comm]

theorem tagged {γ : τ → Type} {tag : Format τ} {body : (t : τ) → Format (γ t)}
    {fitsTag : τ → Prop} {bytesTag : τ → Bytes} {fits : (t : τ) → γ t → Prop}
    {bytes : (t : τ) → γ t → Bytes} (htag : tag.Writes fitsTag bytesTag)
    (hbody : ∀ t, (body t).Writes (fits t) (bytes t)) :
    (tag.tagged body).Writes (fun v => fitsTag v.1 ∧ fits v.1 v.2)
      (fun v => bytesTag v.1 ++ bytes v.1 v.2) := by
  intro v w
  constructor
  · intro h
    simp only [Format.tagged] at h
    split at h
    · rename_i w₁ w₂ h₁ h₂
      obtain rfl := Option.some.inj h
      obtain ⟨hfitsTag, rfl⟩ := (htag _ _).mp h₁
      obtain ⟨hfits, rfl⟩ := (hbody _ _ _).mp h₂
      exact ⟨⟨hfitsTag, hfits⟩, rfl⟩
    · cases h
  · rintro ⟨⟨hfitsTag, hfits⟩, rfl⟩
    simp only [Format.tagged, htag.write_eq hfitsTag, (hbody v.1).write_eq hfits]

theorem pair (h : f.Writes fits bytes) {g : Format β} {fits' : β → Prop} {bytes' : β → Bytes}
    (h' : g.Writes fits' bytes') :
    (f.pair g).Writes (fun v => fits v.1 ∧ fits' v.2) (fun v => bytes v.1 ++ bytes' v.2) :=
  (tagged h fun _ => h').map _ _

theorem optional (h : f.Writes fits bytes) :
    f.optional.Writes (fun o => ∀ a ∈ o, fits a)
      (fun o => o.elim [0] fun a => 1 :: bytes a) := by
  rintro (_ | a) w
  · rw [Format.optional, Option.some.injEq, eq_comm]
    exact ⟨fun hw => ⟨fun _ h => (by cases h), hw⟩, fun hw => hw.2⟩
  · simp only [Format.optional, Option.map_eq_some_iff, h a]
    constructor
    · rintro ⟨w', ⟨ha, rfl⟩, rfl⟩
      exact ⟨fun a' ha' => Option.some.inj ha' ▸ ha, rfl⟩
    · rintro ⟨ha, rfl⟩
      exact ⟨bytes a, ⟨ha a rfl, rfl⟩, rfl⟩

theorem writeMany (h : f.Writes fits bytes) {as : List α} {w : Bytes} :
    f.writeMany as = some w ↔ (∀ a ∈ as, fits a) ∧ w = as.flatMap bytes := by
  induction as generalizing w with
  | nil =>
    rw [Format.writeMany, Option.some.injEq, eq_comm]
    exact ⟨fun hw => ⟨fun _ h => (by cases h), hw⟩, fun hw => hw.2⟩
  | cons a as ih =>
    rw [List.forall_mem_cons, List.flatMap_cons]
    constructor
    · intro hw
      simp only [Format.writeMany] at hw
      split at hw
      · rename_i w₁ w₂ h₁ h₂
        obtain rfl := Option.some.inj hw
        obtain ⟨ha, rfl⟩ := (h a _).mp h₁
        obtain ⟨has, rfl⟩ := ih.mp h₂
        exact ⟨⟨ha, has⟩, rfl⟩
      · cases hw
    · rintro ⟨⟨ha, has⟩, rfl⟩
      simp only [Format.writeMany, h.write_eq ha, ih.mpr ⟨has, rfl⟩]

theorem counted (h : f.Writes fits bytes) (width : Nat) :
    (f.counted width).Writes (fun as => as.length < LittleEndian.capacity width ∧ ∀ a ∈ as, fits a)
      (fun as => LittleEndian.digits width as.length ++ as.flatMap bytes) := by
  intro as w
  constructor
  · intro hw
    simp only [Format.counted] at hw
    split at hw
    · rename_i w₁ w₂ h₁ h₂
      obtain rfl := Option.some.inj hw
      obtain ⟨hlen, rfl⟩ := (number width _ _).mp h₁
      obtain ⟨has, rfl⟩ := h.writeMany.mp h₂
      exact ⟨⟨hlen, has⟩, rfl⟩
    · cases hw
  · rintro ⟨⟨hlen, has⟩, rfl⟩
    simp only [Format.counted, (number width).write_eq hlen, h.writeMany.mpr ⟨has, rfl⟩]

/-- Other words for what fits, and for the bytes. -/
theorem congr (h : f.Writes fits bytes) {fits' : α → Prop} {bytes' : α → Bytes}
    (hfits : ∀ a, fits a ↔ fits' a) (hbytes : ∀ a, bytes a = bytes' a) :
    f.Writes fits' bytes' := by
  intro a w
  rw [h a w, hfits, hbytes]

end Writes

end Format

/-! ## Fields -/

namespace Layout

/-- The bytes of a field of two bytes. -/
def u16 (n : UInt16) : Bytes := LittleEndian.digits 2 n.toNat

/-- The bytes of a field of four bytes. -/
def u32 (n : UInt32) : Bytes := LittleEndian.digits 4 n.toNat

/-- The bytes of a signed field of four bytes. -/
def i32 (n : Int32) : Bytes := u32 n.toUInt32

/-- The bytes of a signed field of eight bytes. -/
def i64 (n : Int64) : Bytes := LittleEndian.digits 8 n.toUInt64.toNat

/-- The bytes of a register. -/
def register (r : Register) : Bytes := u16 r.index

/-- The bytes of a string: its UTF-8 bytes behind their number. -/
def text (s : String) : Bytes := LittleEndian.digits 4 (Utf8.encode s).length ++ Utf8.encode s

/-- The bytes of a list: its elements behind their number. -/
def list {α : Type} (width : Nat) (bytes : α → Bytes) (as : List α) : Bytes :=
  LittleEndian.digits width as.length ++ as.flatMap bytes

end Layout

namespace Format

theorem u8_writes : u8.Writes (fun _ => True) (fun n => [n]) := by
  refine ((Writes.number 1).map _ _).congr (fun n => iff_true_intro ?_) fun n => ?_
  · exact n.toNat_lt
  · simp [LittleEndian.digits]

theorem u16_writes : u16.Writes (fun _ => True) Layout.u16 :=
  ((Writes.number 2).map _ _).congr (fun n => iff_true_intro n.toNat_lt) fun _ => rfl

theorem u32_writes : u32.Writes (fun _ => True) Layout.u32 :=
  ((Writes.number 4).map _ _).congr (fun n => iff_true_intro n.toNat_lt) fun _ => rfl

theorem i32_writes : i32.Writes (fun _ => True) Layout.i32 := u32_writes.map _ _

theorem i64_writes : i64.Writes (fun _ => True) Layout.i64 :=
  ((Writes.number 8).map _ _ |>.map _ _).congr
    (fun n => iff_true_intro n.toUInt64.toNat_lt) fun _ => rfl

theorem register_writes : register.Writes (fun _ => True) Layout.register := u16_writes.map _ _

theorem text_writes : text.Writes (fun s => (Utf8.encode s).length < 4294967296) Layout.text := by
  intro s w
  simp only [text, Option.map_eq_some_iff, Writes.number 4 _ _]
  constructor
  · rintro ⟨w', ⟨hlen, rfl⟩, rfl⟩
    exact ⟨hlen, rfl⟩
  · rintro ⟨hlen, rfl⟩
    exact ⟨_, ⟨hlen, rfl⟩, rfl⟩

end Format

/-! ## Instructions -/

/-- Whether the number of arguments fits its field. -/
def Opcode.OperandsFit : (o : Opcode) → o.Operands → Prop
  | invoke _, (_, args) => args.length < 256
  | _, _ => True

/-- The bytes of the operands behind an opcode. -/
def Opcode.operandBytes : (o : Opcode) → o.Operands → Bytes
  | nop, _ | returnVoid, _ => []
  | move _, (d, s) => Layout.register d ++ Layout.register s
  | moveResult _, r | returnValue _, r | throw, r => Layout.register r
  | const, (d, v) => Layout.register d ++ Layout.i32 v
  | constWide, (d, v) => Layout.register d ++ Layout.i64 v
  | constString, (d, i) | newInstance, (d, i) => Layout.register d ++ Layout.u32 i
  | goto, t => Layout.i32 t
  | branch _, (a, b, t) => Layout.register a ++ (Layout.register b ++ Layout.i32 t)
  | branchZero _, (a, t) => Layout.register a ++ Layout.i32 t
  | binary _, (d, a, b) => Layout.register d ++ (Layout.register a ++ Layout.register b)
  | invoke _, (m, args) => Layout.u32 m ++ Layout.list 1 Layout.register args

theorem Opcode.format_writes : Opcode.format.Writes (fun _ => True) (fun o => [o.byte]) :=
  fun o w => Format.u8_writes o.byte w

theorem Opcode.operands_writes (o : Opcode) :
    o.operands.Writes o.OperandsFit o.operandBytes := by
  cases o
  case nop | returnVoid => exact Format.Writes.unit
  case moveResult | returnValue | throw => exact Format.register_writes
  case goto => exact Format.i32_writes
  case move =>
    exact (Format.register_writes.pair Format.register_writes).congr
      (fun _ => and_self_iff) fun _ => rfl
  case const | branchZero =>
    exact (Format.register_writes.pair Format.i32_writes).congr (fun _ => and_self_iff) fun _ => rfl
  case constWide =>
    exact (Format.register_writes.pair Format.i64_writes).congr (fun _ => and_self_iff) fun _ => rfl
  case constString | newInstance =>
    exact (Format.register_writes.pair Format.u32_writes).congr (fun _ => and_self_iff) fun _ => rfl
  case branch =>
    exact (Format.register_writes.pair (Format.register_writes.pair Format.i32_writes)).congr
      (fun _ => ⟨fun _ => trivial, fun _ => ⟨trivial, trivial, trivial⟩⟩) fun _ => rfl
  case binary =>
    exact (Format.register_writes.pair (Format.register_writes.pair Format.register_writes)).congr
      (fun _ => ⟨fun _ => trivial, fun _ => ⟨trivial, trivial, trivial⟩⟩) fun _ => rfl
  case invoke =>
    exact (Format.u32_writes.pair (Format.register_writes.counted 1)).congr
      (fun _ => ⟨fun h => h.2.1, fun h => ⟨trivial, h, fun _ _ => trivial⟩⟩) fun _ => rfl

namespace StoredInstruction

/-- Whether the number of arguments fits its field. -/
def Fits (i : StoredInstruction) : Prop := i.arguments.length < 256

instance (i : StoredInstruction) : Decidable i.Fits :=
  inferInstanceAs (Decidable (i.arguments.length < 256))

/-- The bytes of an instruction: its opcode, then its operands. -/
def bytes (i : StoredInstruction) : Bytes := i.parts.1.byte :: i.parts.1.operandBytes i.parts.2

theorem format_writes : format.Writes Fits bytes := by
  refine ((Format.Writes.tagged Opcode.format_writes Opcode.operands_writes).map _ _).congr ?_
    fun _ => rfl
  have hnone : ([] : List Register).length < 256 := by decide
  intro i
  cases i
  case invoke => exact ⟨fun h => h.2, fun h => ⟨trivial, h⟩⟩
  all_goals exact ⟨fun _ => hnone, fun _ => ⟨trivial, trivial⟩⟩

/-- Exactly the bytes of instructions that fit are read, each as its instruction. -/
theorem read_eq_ok_iff {bs rest : Bytes} {i : StoredInstruction} :
    format.read bs = .ok (i, rest) ↔ i.Fits ∧ bs = i.bytes ++ rest :=
  format_writes.read_eq_ok_iff format_exact

end StoredInstruction

/-! ## Definitions -/

/-- Whether the number of instructions and the instructions fit. -/
structure StoredBody.Fits (b : StoredBody) : Prop where
  length : b.instructions.length < 4294967296
  instructions : ∀ i ∈ b.instructions, StoredInstruction.Fits i

instance (b : StoredBody) : Decidable b.Fits :=
  decidable_of_iff (b.instructions.length < 4294967296 ∧
      ∀ i ∈ b.instructions, StoredInstruction.Fits i)
    ⟨fun h => ⟨h.1, h.2⟩, fun h => ⟨h.length, h.instructions⟩⟩

/-- The bytes of a body. -/
def StoredBody.bytes (b : StoredBody) : Bytes :=
  Layout.u16 b.registers ++ (Layout.u16 b.ins ++ (Layout.u16 b.outs ++
    Layout.list 4 StoredInstruction.bytes b.instructions))

theorem StoredBody.format_writes : StoredBody.format.Writes Fits bytes := by
  refine ((Format.u16_writes.pair (Format.u16_writes.pair (Format.u16_writes.pair
    (StoredInstruction.format_writes.counted 4)))).map _ _).congr (fun b => ?_) fun _ => rfl
  exact ⟨fun h => ⟨h.2.2.2.1, h.2.2.2.2⟩,
    fun h => ⟨trivial, trivial, trivial, h.length, h.instructions⟩⟩

/-- Whether the body fits, if there is one. -/
def StoredMethod.Fits (m : StoredMethod) : Prop := ∀ b ∈ m.body, b.Fits

instance (m : StoredMethod) : Decidable m.Fits :=
  inferInstanceAs (Decidable (∀ b ∈ m.body, b.Fits))

/-- The bytes of a method: a byte says whether a body follows. -/
def StoredMethod.bytes (m : StoredMethod) : Bytes :=
  Layout.u32 m.ref ++ (Layout.u32 m.flags ++ m.body.elim [0] fun b => 1 :: b.bytes)

theorem StoredMethod.format_writes : StoredMethod.format.Writes Fits bytes := by
  refine ((Format.u32_writes.pair (Format.u32_writes.pair
    StoredBody.format_writes.optional)).map _ _).congr (fun m => ?_) fun _ => rfl
  exact ⟨fun h => h.2.2, fun h => ⟨trivial, trivial, h⟩⟩

/-- Whether the number of methods and the methods fit. -/
structure StoredClass.Fits (c : StoredClass) : Prop where
  length : c.methods.length < 4294967296
  methods : ∀ m ∈ c.methods, m.Fits

instance (c : StoredClass) : Decidable c.Fits :=
  decidable_of_iff (c.methods.length < 4294967296 ∧ ∀ m ∈ c.methods, m.Fits)
    ⟨fun h => ⟨h.1, h.2⟩, fun h => ⟨h.length, h.methods⟩⟩

/-- The bytes of a class definition. -/
def StoredClass.bytes (c : StoredClass) : Bytes :=
  Layout.u32 c.type ++ (Layout.u32 c.flags ++ (Layout.u32 c.super ++
    Layout.list 4 StoredMethod.bytes c.methods))

theorem StoredClass.format_writes : StoredClass.format.Writes Fits bytes := by
  refine ((Format.u32_writes.pair (Format.u32_writes.pair (Format.u32_writes.pair
    (StoredMethod.format_writes.counted 4)))).map _ _).congr (fun c => ?_) fun _ => rfl
  exact ⟨fun h => ⟨h.2.2.2.1, h.2.2.2.2⟩,
    fun h => ⟨trivial, trivial, trivial, h.length, h.methods⟩⟩

/-! ## Pools -/

/-- Whether the number of parameters fits its field. -/
def StoredProto.Fits (p : StoredProto) : Prop := p.parameters.length < 65536

instance (p : StoredProto) : Decidable p.Fits :=
  inferInstanceAs (Decidable (p.parameters.length < 65536))

/-- The bytes of an entry of the prototype pool. -/
def StoredProto.bytes (p : StoredProto) : Bytes :=
  Layout.u32 p.result ++ Layout.list 2 Layout.u32 p.parameters

theorem StoredProto.format_writes : StoredProto.format.Writes Fits bytes := by
  refine ((Format.u32_writes.pair (Format.u32_writes.counted 2)).map _ _).congr
    (fun p => ?_) fun _ => rfl
  exact ⟨fun h => h.2.1, fun h => ⟨trivial, h, fun _ _ => trivial⟩⟩

/-- The bytes of an entry of the method pool: the prototype stands before the name. -/
def StoredMethodId.bytes (m : StoredMethodId) : Bytes :=
  Layout.u32 m.owner ++ (Layout.u32 m.proto ++ Layout.u32 m.name)

theorem StoredMethodId.format_writes :
    StoredMethodId.format.Writes (fun _ => True) StoredMethodId.bytes :=
  ((Format.u32_writes.pair (Format.u32_writes.pair Format.u32_writes)).map _ _).congr
    (fun _ => ⟨fun _ => trivial, fun _ => ⟨trivial, trivial, trivial⟩⟩) fun _ => rfl

/-- Whether the sizes of the pools and their entries fit. -/
structure Pools.Fits (p : Pools) : Prop where
  strings_length : p.strings.length < 4294967296
  strings : ∀ s ∈ p.strings, (Utf8.encode s).length < 4294967296
  types_length : p.types.length < 4294967296
  protos_length : p.protos.length < 4294967296
  protos : ∀ m ∈ p.protos, m.Fits
  methods_length : p.methods.length < 4294967296

instance (p : Pools) : Decidable p.Fits :=
  decidable_of_iff (p.strings.length < 4294967296 ∧
      (∀ s ∈ p.strings, (Utf8.encode s).length < 4294967296) ∧ p.types.length < 4294967296 ∧
      p.protos.length < 4294967296 ∧ (∀ m ∈ p.protos, m.Fits) ∧ p.methods.length < 4294967296)
    ⟨fun h => ⟨h.1, h.2.1, h.2.2.1, h.2.2.2.1, h.2.2.2.2.1, h.2.2.2.2.2⟩, fun h =>
      ⟨h.strings_length, h.strings, h.types_length, h.protos_length, h.protos, h.methods_length⟩⟩

/-- The bytes of the pools. -/
def Pools.bytes (p : Pools) : Bytes :=
  Layout.list 4 Layout.text p.strings ++ (Layout.list 4 Layout.u32 p.types ++
    (Layout.list 4 StoredProto.bytes p.protos ++ Layout.list 4 StoredMethodId.bytes p.methods))

theorem Pools.format_writes : Pools.format.Writes Fits bytes := by
  refine (((Format.text_writes.counted 4).pair ((Format.u32_writes.counted 4).pair
    ((StoredProto.format_writes.counted 4).pair
      (StoredMethodId.format_writes.counted 4)))).map _ _).congr (fun p => ?_) fun _ => rfl
  constructor
  · rintro ⟨⟨hs, hs'⟩, ⟨ht, -⟩, ⟨hp, hp'⟩, hm, -⟩
    exact ⟨hs, hs', ht, hp, hp', hm⟩
  · intro h
    exact ⟨⟨h.strings_length, h.strings⟩, ⟨h.types_length, fun _ _ => trivial⟩,
      ⟨h.protos_length, h.protos⟩, h.methods_length, fun _ _ => trivial⟩

/-! ## Containers -/

namespace Container

/-- Whether all counts of the container fit their fields. -/
structure Fits (c : Container) : Prop where
  pools : c.pools.Fits
  length : c.classes.length < 4294967296
  classes : ∀ k ∈ c.classes, k.Fits

instance (c : Container) : Decidable c.Fits :=
  decidable_of_iff (c.pools.Fits ∧ c.classes.length < 4294967296 ∧ ∀ k ∈ c.classes, k.Fits)
    ⟨fun h => ⟨h.1, h.2.1, h.2.2⟩, fun h => ⟨h.pools, h.length, h.classes⟩⟩

/-- The bytes behind the header: the pools, the number of class definitions, and these. -/
def bytes (c : Container) : Bytes :=
  c.pools.bytes ++ Layout.list 4 StoredClass.bytes c.classes

theorem content_writes : content.Writes Fits bytes := by
  refine ((Pools.format_writes.pair (StoredClass.format_writes.counted 4)).map _ _).congr
    (fun c => ?_) fun _ => rfl
  exact ⟨fun h => ⟨h.1, h.2.1, h.2.2⟩, fun h => ⟨h.pools, h.length, h.classes⟩⟩

/-- What is rendered is a container that fits. -/
theorem render?_eq_some_iff {c : Container} {bs : Bytes} :
    c.render? = some bs ↔ c.Fits ∧ bs = image c.bytes := by
  simp only [render?, Option.map_eq_some_iff, content_writes c _]
  constructor
  · rintro ⟨w, ⟨hfits, rfl⟩, rfl⟩
    exact ⟨hfits, rfl⟩
  · rintro ⟨hfits, rfl⟩
    exact ⟨_, ⟨hfits, rfl⟩, rfl⟩

/-- What is read is the image of a container that fits. -/
theorem parse_eq_ok_iff {bs : Bytes} {c : Container} :
    parse bs = .ok c ↔ c.Fits ∧ bs = image c.bytes := by
  constructor
  · intro h
    obtain ⟨body, hbody, rfl⟩ := eq_image_of_parse h
    obtain ⟨hfits, rfl⟩ := (content_writes c _).mp (parseContent_eq_ok_iff.mp hbody)
    exact ⟨hfits, rfl⟩
  · rintro ⟨hfits, rfl⟩
    rw [parse_image]
    exact parseContent_eq_ok_iff.mpr (content_writes.write_eq hfits)

/-- Containers and the byte strings that are accepted correspond one to one: a byte string is
read as a container exactly if it is the magic, the checksum of the content, and the content; the
containers that have a content are those whose counts fit; and each instruction is read from
its own bytes and no others, whatever follows it. -/
theorem stored_format_bijective :
    (∀ bs c, parse bs = .ok c ↔ c.Fits ∧
      bs = magic ++ Layout.u32 (Crc32.checksum c.bytes) ++ c.bytes) ∧
    (∀ bs c, parse bs = .ok c ↔ c.render? = some bs) ∧
    (∀ c : Container, (∃ bs, c.render? = some bs) ↔ c.Fits) ∧
    (∀ bs rest i, StoredInstruction.format.read bs = .ok (i, rest) ↔
      i.Fits ∧ bs = i.bytes ++ rest) ∧
    ∀ i rest, i.Fits → StoredInstruction.format.read (i.bytes ++ rest) = .ok (i, rest) := by
  have himage : ∀ body,
      image body = magic ++ Layout.u32 (Crc32.checksum body) ++ body := fun body =>
    (List.append_assoc _ _ _).symm
  refine ⟨fun bs c => ?_, fun bs c => ?_, fun c => ?_, fun bs rest i => ?_, fun i rest hi => ?_⟩
  · rw [parse_eq_ok_iff, himage]
  · rw [parse_eq_ok_iff, render?_eq_some_iff]
  · simp only [render?_eq_some_iff]
    constructor
    · rintro ⟨bs, hfits, -⟩
      exact hfits
    · exact fun hfits => ⟨_, hfits, rfl⟩
  · exact StoredInstruction.read_eq_ok_iff
  · exact StoredInstruction.read_eq_ok_iff.mpr ⟨hi, rfl⟩

end Container

end DexWeave
