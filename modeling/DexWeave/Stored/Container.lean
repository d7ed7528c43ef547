/-
  DexWeave/Stored/Container.lean --- containers as byte strings.

  WHAT THIS FILE IS FOR.  A container is eight bytes of magic, the CRC-32 of all that
  follows it, the pools, and the class definitions behind their number.  Nothing may
  follow the last definition.

  WHAT IS PROVED.  The content of an accepted byte string is what writing its
  container produces, and the byte string is the image of that content; the image of
  any content is read as the content is.
-/
import DexWeave.Digest.Crc32
import DexWeave.Stored.ClassDef
import DexWeave.Stored.Pools

set_option autoImplicit false

namespace DexWeave

/-- The pools and the class definitions of a container, with no index resolved. -/
structure Container where
  /-- The pools. -/
  pools : Pools
  /-- The class definitions. -/
  classes : List StoredClass
  deriving DecidableEq, Repr, Inhabited

namespace Container

/-- The bytes that every container opens with. -/
def magic : Bytes := [0x64, 0x65, 0x78, 0x0a, 0x30, 0x33, 0x35, 0x00]

/-- How what follows the header is stored. -/
def content : Format Container :=
  (Pools.format.pair (StoredClass.format.counted 4)).map
    (fun (pools, classes) => ⟨pools, classes⟩)
    (fun c => (c.pools, c.classes))

theorem content_exact : content.Exact :=
  Format.map_exact_of_inverse
    (Format.pair_exact Pools.format_exact (Format.counted_exact StoredClass.format_exact 4))
    (fun _ => rfl) (fun _ => rfl)

/-- The image with the given content: the header states the checksum of the content. -/
def image (body : Bytes) : Bytes :=
  magic ++ (LittleEndian.digits 4 (Crc32.checksum body).toNat ++ body)

/-- The image of a container; none if a count does not fit its field. -/
def render? (c : Container) : Option Bytes := (content.write c).map image

/-- Reads the content of a container, up to the last byte. -/
def parseContent (body : Bytes) : Except DecodeError Container :=
  match content.read body with
  | .error e => .error e
  | .ok (c, []) => .ok c
  | .ok (_, _ :: _) => .error .unexpectedData

/-- Reads a container. -/
def parse (bs : Bytes) : Except DecodeError Container :=
  match Format.takeExactly 8 bs with
  | none => .error .endOfInput
  | some (front, rest) =>
    if front ≠ magic then .error .notAContainer
    else
      match Format.u32.read rest with
      | .error e => .error e
      | .ok (stored, body) =>
        if stored = Crc32.checksum body then parseContent body
        else .error (.checksumMismatch stored (Crc32.checksum body))

theorem parseContent_eq_ok_iff {body : Bytes} {c : Container} :
    parseContent body = .ok c ↔ content.write c = some body := by
  constructor
  · intro h
    simp only [parseContent] at h
    split at h
    · simp at h
    · rename_i c' hc
      obtain rfl := Except.ok.inj h
      obtain ⟨w, hw, rfl⟩ := content_exact.write_read hc
      rw [hw, List.append_nil]
    · simp at h
  · intro h
    have hr := content_exact.read_write [] h
    rw [List.append_nil] at hr
    rw [parseContent, hr]

theorem parse_image (body : Bytes) : parse (image body) = parseContent body := by
  have hm : Format.takeExactly 8 (image body) =
      some (magic, LittleEndian.digits 4 (Crc32.checksum body).toNat ++ body) :=
    Format.takeExactly_append magic _
  have hw : Format.u32.write (Crc32.checksum body) =
      some (LittleEndian.digits 4 (Crc32.checksum body).toNat) :=
    if_pos (Crc32.checksum body).toNat_lt
  have hr := Format.u32_exact.read_write body hw
  rw [parse, hm]
  simp only [ne_eq, not_true_eq_false, if_false, hr, if_true]

theorem eq_image_of_parse {bs : Bytes} {c : Container} (h : parse bs = .ok c) :
    ∃ body, parseContent body = .ok c ∧ bs = image body := by
  simp only [parse] at h
  split at h
  · simp at h
  · rename_i front rest ht
    obtain ⟨rfl, -⟩ := Format.eq_append_of_takeExactly ht
    split at h
    · simp at h
    · rename_i hmagic
      obtain rfl := Decidable.not_not.mp hmagic
      split at h
      · simp at h
      · rename_i stored body hs
        split at h
        · rename_i hcrc
          subst hcrc
          obtain ⟨w, hw, rfl⟩ := Format.u32_exact.write_read hs
          have hw' : Format.u32.write (Crc32.checksum body) =
              some (LittleEndian.digits 4 (Crc32.checksum body).toNat) :=
            if_pos (Crc32.checksum body).toNat_lt
          rw [hw'] at hw
          obtain rfl := Option.some.inj hw
          exact ⟨body, h, rfl⟩
        · simp at h

end Container

end DexWeave
