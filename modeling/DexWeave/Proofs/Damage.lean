/-
  DexWeave/Proofs/Damage.lean --- containers that were damaged, cut or extended.

  WHAT THIS FILE IS FOR.  A container that was accepted is looked at again after something
  happened to its bytes: some of them were replaced, or were lost at the end, or more came
  behind them.  The header is read first, so whatever happened to the content is found by the
  checksum, unless the checksum happens to agree; and then the layout finds it.

  WHAT IS PROVED.  A change of the magic is named as such, and a change within the stated
  checksum or within four bytes of the content never passes the checksum.  No front and no
  extension of an accepted container is accepted, whatever the checksum happens to be, and
  the fault that is found is given.
-/
import DexWeave.Container.Decode
import DexWeave.Container.Encode
import DexWeave.Proofs.Checksum
import DexWeave.Proofs.Fallible
import DexWeave.Proofs.Truncation

set_option autoImplicit false

namespace DexWeave

open Fallible

/-- Memory that is handed out is always larger than it was asked for. -/
def Allocator.HandsOutMore (allocate : Allocator) : Prop :=
  ∀ size contents, allocate size = .memory contents → size < contents.length

namespace Container

variable {bs bs' : Bytes} {c : Container}

/-! ## The header -/

/-- The checksum that the header states. -/
def statedChecksum (bs : Bytes) : UInt32 :=
  UInt32.ofNat (LittleEndian.value ((bs.drop 8).take 4))

theorem parse_of_wrongMagic (hlength : 8 ≤ bs.length) (h : bs.take 8 ≠ magic) :
    parse bs = .error .notAContainer := by
  rw [parse, Format.takeExactly_of_le hlength]
  exact if_pos h

/-- What opens with the magic and has a whole header is read by its checksum first. -/
theorem parse_of_magic (hlength : 12 ≤ bs.length) (h : bs.take 8 = magic) :
    parse bs =
      if statedChecksum bs = Crc32.checksum (bs.drop 12) then parseContent (bs.drop 12)
      else .error (.checksumMismatch (statedChecksum bs) (Crc32.checksum (bs.drop 12))) := by
  have hword : 4 ≤ (bs.drop 8).length := by
    rw [List.length_drop]
    omega
  have hread : Format.u32.read (bs.drop 8) = .ok (statedChecksum bs, bs.drop 12) := by
    simp only [Format.u32, Format.map, Format.number, Format.takeExactly_of_le hword,
      List.drop_drop, statedChecksum]
  rw [parse, Format.takeExactly_of_le (Nat.le_trans (by decide) hlength)]
  simp only [h, ne_eq, not_true_eq_false, if_false, hread]

/-- Without a whole header there is nothing to check. -/
theorem parse_of_short (hlength : bs.length < 12) (h : bs.take 8 = magic.take bs.length) :
    parse bs = .error .endOfInput := by
  by_cases hmagic : bs.length < 8
  · rw [parse, Format.takeExactly_of_lt hmagic]
  · have hle : 8 ≤ bs.length := Nat.le_of_not_lt hmagic
    have htake : bs.take 8 = magic := by rw [h, List.take_of_length_le hle]
    have hword : (bs.drop 8).length < 4 := by
      rw [List.length_drop]
      omega
    rw [parse, Format.takeExactly_of_le hle]
    simp only [htake, ne_eq, not_true_eq_false, if_false, Format.u32, Format.map, Format.number,
      Format.takeExactly_of_lt hword]

/-- What an accepted byte string consists of. -/
structure Accepted (bs : Bytes) (c : Container) : Prop where
  length : 12 ≤ bs.length
  opens : bs.take 8 = magic
  checksum : statedChecksum bs = Crc32.checksum (bs.drop 12)
  stored : content.write c = some (bs.drop 12)

theorem accepted_of_parse (h : parse bs = .ok c) : Accepted bs c := by
  obtain ⟨body, hcontent, rfl⟩ := eq_image_of_parse h
  have hheader : (image body).drop 8 =
      LittleEndian.digits 4 (Crc32.checksum body).toNat ++ body := rfl
  have hbody : (image body).drop 12 = body := rfl
  refine ⟨?_, rfl, ?_, ?_⟩
  · rw [← List.take_append_drop 12 (image body), List.length_append]
    exact Nat.le_add_right _ _
  · have hword : ((image body).drop 8).take 4 =
        LittleEndian.digits 4 (Crc32.checksum body).toNat := rfl
    rw [statedChecksum, hword, hbody,
      LittleEndian.value_digits (Crc32.checksum body).toNat_lt, UInt32.ofNat_toNat]
  · rw [hbody]
    exact parseContent_eq_ok_iff.mp hcontent

/-! ## Damage -/

/-- The stated checksum is read from four bytes, and tells all their values apart. -/
theorem statedChecksum_injective (hlength : 12 ≤ bs.length) (hlength' : 12 ≤ bs'.length)
    (h : statedChecksum bs = statedChecksum bs') :
    (bs.drop 8).take 4 = (bs'.drop 8).take 4 := by
  have hfour : ∀ cs : Bytes, 12 ≤ cs.length → ((cs.drop 8).take 4).length = 4 := by
    intro cs hcs
    rw [List.length_take, List.length_drop]
    omega
  rw [statedChecksum, statedChecksum, ← UInt32.toNat_inj,
    UInt32.toNat_ofNat_of_lt' (LittleEndian.value_lt_pow (Nat.le_of_eq (hfour bs hlength))),
    UInt32.toNat_ofNat_of_lt' (LittleEndian.value_lt_pow (Nat.le_of_eq (hfour bs' hlength')))] at h
  exact LittleEndian.value_injective ((hfour bs hlength).trans (hfour bs' hlength').symm) h

theorem split_header (cs : Bytes) :
    cs.take 8 ++ ((cs.drop 8).take 4 ++ cs.drop 12) = cs := by
  have hback : cs.drop 12 = (cs.drop 8).drop 4 := by rw [List.drop_drop]
  rw [hback, List.take_append_drop, List.take_append_drop]

/-- The content is the same, so the stated checksum would have to be. -/
theorem Accepted.stated_ne_of_field (haccepted : Accepted bs c)
    (hdamage : AgreeOutside 8 12 bs bs') (hne : bs' ≠ bs) :
    statedChecksum bs' ≠ Crc32.checksum (bs'.drop 12) := by
  intro hchecksum
  have hlength := haccepted.length
  have hlong : 12 ≤ bs'.length := hdamage.length_eq ▸ hlength
  rw [hdamage.drop_eq, ← haccepted.checksum] at hchecksum
  have hword := statedChecksum_injective hlong hlength hchecksum
  apply hne
  rw [← split_header bs', ← split_header bs, hdamage.take_eq (Nat.le_refl 8), hword,
    hdamage.drop_eq]

/-- The stated checksum is the same, so that of the content would have to be. -/
theorem Accepted.stated_ne_of_window (haccepted : Accepted bs c) {start : Nat}
    (hstart : 12 ≤ start) (hdamage : AgreeOutside start (start + 4) bs bs') (hne : bs' ≠ bs) :
    statedChecksum bs' ≠ Crc32.checksum (bs'.drop 12) := by
  have htake : bs'.take 12 = bs.take 12 := hdamage.take_eq hstart
  have hstated : statedChecksum bs' = statedChecksum bs := by
    have hword : (bs'.drop 8).take 4 = (bs.drop 8).take 4 := by
      rw [List.take_drop, List.take_drop, htake]
    rw [statedChecksum, statedChecksum, hword]
  have hcontent : bs'.drop 12 ≠ bs.drop 12 := fun hdrop => hne (by
    rw [← List.take_append_drop 12 bs', ← List.take_append_drop 12 bs, htake, hdrop])
  have hinner : AgreeOutside (start - 12) (start - 12 + 4) (bs.drop 12) (bs'.drop 12) := by
    have hdrop := hdamage.drop 12
    rwa [Nat.sub_add_comm hstart] at hdrop
  rw [hstated, haccepted.checksum]
  exact (Crc32.checksum_ne_of_agreeOutside hinner hcontent).symm

/-- A changed byte of the magic is found as such, and a change within the stated checksum or within
four consecutive bytes of the content is found by the checksum. -/
theorem damage_detected (h : parse bs = .ok c) (hlength : bs'.length = bs.length) :
    ((∃ i < 8, bs'[i]? ≠ bs[i]?) → parse bs' = .error .notAContainer) ∧
    (bs' ≠ bs →
      (AgreeOutside 8 12 bs bs' ∨ ∃ start, 12 ≤ start ∧ AgreeOutside start (start + 4) bs bs') →
      parse bs' =
        .error (.checksumMismatch (statedChecksum bs') (Crc32.checksum (bs'.drop 12)))) := by
  have haccepted := accepted_of_parse h
  have hlong : 12 ≤ bs'.length := hlength ▸ haccepted.length
  refine ⟨?magic, fun hne hdamage => ?checksum⟩
  case magic =>
    rintro ⟨i, hi, hne⟩
    refine parse_of_wrongMagic (Nat.le_trans (by decide) hlong) fun hmagic => hne ?_
    have hat := congrArg (·[i]?) (hmagic.trans haccepted.opens.symm)
    simpa only [List.getElem?_take, if_pos hi] using hat
  case checksum =>
    have hmagic : bs'.take 8 = bs.take 8 := by
      rcases hdamage with hfield | ⟨start, hstart, hwindow⟩
      · exact hfield.take_eq (Nat.le_refl 8)
      · exact hwindow.take_eq (Nat.le_trans (by decide) hstart)
    rw [parse_of_magic hlong (hmagic.trans haccepted.opens)]
    refine if_neg ?_
    rcases hdamage with hfield | ⟨start, hstart, hwindow⟩
    · exact haccepted.stated_ne_of_field hfield hne
    · exact haccepted.stated_ne_of_window hstart hwindow hne

/-- The content of a container with one class, which has no methods. -/
def emptyClassContent : Bytes :=
  [1, 0, 0, 0, 3, 0, 0, 0, 0x4c, 0x41, 0x3b] ++ [1, 0, 0, 0, 0, 0, 0, 0] ++ [0, 0, 0, 0] ++
    [0, 0, 0, 0] ++ [1, 0, 0, 0, 0, 0, 0, 0, 1, 0, 0, 0, 0xff, 0xff, 0xff, 0xff, 0, 0, 0, 0]

theorem parse_emptyClass :
    parse (image emptyClassContent) =
      .ok ⟨⟨["LA;"], [0], [], []⟩, [⟨0, 1, StoredClass.noIndex, []⟩]⟩ := by
  rw [parse_image]
  decide +kernel

/-- The container with a byte of the name of its class, and one of the size of its type pool,
replaced. -/
def renamedImage : Bytes := ((image emptyClassContent).set 21 0x42).set 23 0x02

theorem damage_detected_renamed :
    (∃ c, parse (image emptyClassContent) = .ok c) ∧
    renamedImage.length = (image emptyClassContent).length ∧
    renamedImage ≠ image emptyClassContent ∧
    AgreeOutside 20 24 (image emptyClassContent) renamedImage ∧
    parse renamedImage =
      .error (.checksumMismatch (statedChecksum renamedImage)
        (Crc32.checksum (renamedImage.drop 12))) := by
  have hlength : renamedImage.length = (image emptyClassContent).length := by
    rw [renamedImage, List.length_set, List.length_set]
  have hagree : AgreeOutside 20 24 (image emptyClassContent) renamedImage := by
    refine ⟨hlength, fun i hi => ?_⟩
    rw [renamedImage, List.getElem?_set_ne (by omega), List.getElem?_set_ne (by omega)]
  have hne : renamedImage ≠ image emptyClassContent := by decide +kernel
  exact ⟨⟨_, parse_emptyClass⟩, hlength, hne, hagree,
    (damage_detected parse_emptyClass hlength).2 hne (.inr ⟨20, by decide, hagree⟩)⟩

/-! ## Fronts and extensions -/

/-- Behind the content of an accepted container nothing may follow. -/
theorem parseContent_append {body rest : Bytes} (h : content.write c = some body)
    (hrest : rest ≠ []) : parseContent (body ++ rest) = .error .unexpectedData := by
  obtain ⟨b, rest, rfl⟩ := List.exists_cons_of_ne_nil hrest
  rw [parseContent, content_exact.read_write _ h]

/-- A proper front of the content of an accepted container is found too short. -/
theorem parseContent_front {front back : Bytes} (h : content.write c = some (front ++ back))
    (hback : back ≠ []) : parseContent front = .error .endOfInput := by
  rw [parseContent, content_cutShort.read_eq h hback]

/-- More bytes behind an accepted container are found by the checksum or, where it happens to agree,
as data behind the last class. -/
theorem Accepted.parse_append (haccepted : Accepted bs c) {rest : Bytes} (hrest : rest ≠ []) :
    parse (bs ++ rest) =
      if statedChecksum bs = Crc32.checksum (bs.drop 12 ++ rest) then .error .unexpectedData
      else .error (.checksumMismatch (statedChecksum bs)
        (Crc32.checksum (bs.drop 12 ++ rest))) := by
  have hlength := haccepted.length
  have hlong : 12 ≤ (bs ++ rest).length := by
    rw [List.length_append]
    omega
  have hmagic : (bs ++ rest).take 8 = magic := by
    rw [List.take_append_of_le_length (by omega), haccepted.opens]
  have hcontent : (bs ++ rest).drop 12 = bs.drop 12 ++ rest :=
    List.drop_append_of_le_length hlength
  have hstated : statedChecksum (bs ++ rest) = statedChecksum bs := by
    have hword : ((bs ++ rest).drop 8).take 4 = (bs.drop 8).take 4 := by
      rw [List.take_drop, List.take_drop, List.take_append_of_le_length hlength]
    rw [statedChecksum, statedChecksum, hword]
  rw [parse_of_magic hlong hmagic, hcontent, hstated,
    parseContent_append haccepted.stored hrest]

/-- A proper front of an accepted container is found by the checksum or, where it happens to agree
or is not whole itself, as cut short. -/
theorem Accepted.parse_front {front back : Bytes} (haccepted : Accepted (front ++ back) c)
    (hback : back ≠ []) :
    parse front =
      if 12 ≤ front.length ∧ statedChecksum front ≠ Crc32.checksum (front.drop 12) then
        .error (.checksumMismatch (statedChecksum front) (Crc32.checksum (front.drop 12)))
      else .error .endOfInput := by
  have hmagic := haccepted.opens
  by_cases hlong : 12 ≤ front.length
  · have hcontent := haccepted.stored
    rw [List.drop_append_of_le_length hlong] at hcontent
    rw [List.take_append_of_le_length (by omega)] at hmagic
    rw [parse_of_magic hlong hmagic, parseContent_front hcontent hback]
    by_cases hchecksum : statedChecksum front = Crc32.checksum (front.drop 12)
    · rw [if_pos hchecksum, if_neg fun h => h.2 hchecksum]
    · rw [if_neg hchecksum, if_pos ⟨hlong, hchecksum⟩]
  · rw [if_neg fun h => hlong h.1]
    refine parse_of_short (Nat.lt_of_not_le hlong) ?_
    rw [← hmagic, List.take_take, Nat.min_comm, ← List.take_take, List.take_left]

/-- What is stored in more memory than needed is a container with more behind it. -/
theorem exists_of_encode {d : DexFile} {allocate : Allocator} {buffer : Bytes}
    (hmore : allocate.HandsOutMore) (h : d.encode allocate = .ok buffer) :
    ∃ bytes c rest, parse bytes = .ok c ∧ buffer = bytes ++ rest ∧ rest ≠ [] := by
  obtain ⟨bytes, himage, hplace⟩ := bind_eq_ok.mp h
  obtain ⟨c, -, hrender⟩ := bind_eq_ok.mp himage
  split at hrender
  · cases hrender
  · rename_i content hcontent
    obtain rfl := Except.ok.inj hrender
    obtain ⟨body, hbody, rfl⟩ := Option.map_eq_some_iff.mp hcontent
    rw [Allocator.place] at hplace
    split at hplace
    · cases hplace
    · cases hplace
    · rename_i contents hcontents
      split at hplace
      · cases hplace
      · obtain rfl := Except.ok.inj hplace
        refine ⟨_, c, _, ?_, rfl, ?_⟩
        · rw [parse_image]
          exact parseContent_eq_ok_iff.mpr hbody
        · have hlength := hmore _ _ hcontents
          rw [ne_eq, List.drop_eq_nil_iff]
          omega

/-- Accepted containers are prefix-free, whatever the checksum happens to be: neither what stands
behind nor what is missing at the end of an accepted container leaves an accepted one.  So memory
that is larger than it was asked for is never a container as a whole. -/
theorem accepted_prefixFree :
    (∀ bs c, parse bs = .ok c →
      (∀ rest, rest ≠ [] →
        parse (bs ++ rest) =
          if statedChecksum bs = Crc32.checksum (bs.drop 12 ++ rest) then .error .unexpectedData
          else .error (.checksumMismatch (statedChecksum bs)
            (Crc32.checksum (bs.drop 12 ++ rest)))) ∧
      ∀ front back, front ++ back = bs → back ≠ [] →
        parse front =
          if 12 ≤ front.length ∧ statedChecksum front ≠ Crc32.checksum (front.drop 12) then
            .error (.checksumMismatch (statedChecksum front) (Crc32.checksum (front.drop 12)))
          else .error .endOfInput) ∧
    ∀ (d : DexFile) (allocate : Allocator) buffer, allocate.HandsOutMore →
      d.encode allocate = .ok buffer →
        (∃ e, parse buffer = .error e) ∧ ∀ name, ∃ e, DexFile.decode buffer name = .error e := by
  refine ⟨fun bs c h => ?accepted, fun d allocate buffer hmore hencode => ?encoded⟩
  case accepted =>
    have haccepted := accepted_of_parse h
    refine ⟨fun rest hrest => haccepted.parse_append hrest, ?_⟩
    rintro front back rfl hback
    exact haccepted.parse_front hback
  case encoded =>
    obtain ⟨bytes, c, rest, hparse, rfl, hrest⟩ := exists_of_encode hmore hencode
    have hfails : ∃ e, parse (bytes ++ rest) = .error e := by
      rw [(accepted_of_parse hparse).parse_append hrest]
      split <;> exact ⟨_, rfl⟩
    obtain ⟨e, he⟩ := hfails
    refine ⟨⟨e, he⟩, fun name => ⟨e, ?_⟩⟩
    rw [DexFile.decode, he, error_bind]

/-- Hands out three bytes more than it is asked for. -/
def generous : Allocator := fun size => .memory (List.replicate (size + 3) 0xaa)

theorem accepted_prefixFree_emptyClass :
    (∃ c, parse (image emptyClassContent) = .ok c) ∧
    parse ((image emptyClassContent).take 40) =
      .error (.checksumMismatch (statedChecksum ((image emptyClassContent).take 40))
        (Crc32.checksum (((image emptyClassContent).take 40).drop 12))) ∧
    generous.HandsOutMore ∧
    DexFile.encode ⟨[⟨⟨"A"⟩, ⟨1⟩, none, []⟩]⟩ generous =
      .ok (image emptyClassContent ++ [0xaa, 0xaa, 0xaa]) ∧
    ∃ e, parse (image emptyClassContent ++ [0xaa, 0xaa, 0xaa]) = .error e := by
  obtain ⟨haccepted, hencoded⟩ := accepted_prefixFree
  have hmore : generous.HandsOutMore := by
    rintro size contents ⟨⟩
    rw [List.length_replicate]
    omega
  have hencode : DexFile.encode ⟨[⟨⟨"A"⟩, ⟨1⟩, none, []⟩]⟩ generous =
      .ok (image emptyClassContent ++ [0xaa, 0xaa, 0xaa]) := by decide +kernel
  refine ⟨⟨_, parse_emptyClass⟩, ?_, hmore, hencode, (hencoded _ _ _ hmore hencode).1⟩
  rw [(haccepted _ _ parse_emptyClass).2 _ _ (List.take_append_drop 40 _) (by decide +kernel)]
  exact if_pos (by decide +kernel)

end Container

end DexWeave
