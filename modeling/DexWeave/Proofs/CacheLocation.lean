/-
  DexWeave/Proofs/CacheLocation.lean --- every entry has a place of its own.

  WHAT THIS FILE IS FOR.  The directory of a cache is named after a payload and a list of
  transforms, and a file in it after a class.  Below one base, whatever path that is, two
  entries have the same path only if all three agree.  So nothing that is stored for one
  payload or one catalog is read for another.

  THE PARTS.  The two directories are single names: not empty, and without a slash.  A slash of
  a class becomes a dot, so the file is a single name as well, and the three are what the
  slashes of the path cut it into behind the base.

  WHERE PATHS LEAD.  A single dot is a name that leads nowhere.  As places in a file tree, two
  entries are told apart up to such names, and a digest is none.
-/
import DexWeave.Attach
import DexWeave.Proofs.CacheEntry

set_option autoImplicit false

namespace DexWeave

/-! ## Names joined to paths -/

namespace Path

variable {p : Path} {name : String}

/-- A text that is one part of a path. -/
structure IsName (name : String) : Prop where
  ne_empty : name ≠ ""
  no_slash : '/' ∉ name.toList

/-- What stands in front of a name that is joined to a path. -/
def front (p : Path) : String := if p.takesPart then p.text else p.text ++ "/"

theorem join_eq (p : Path) (h : IsName name) : p.join ⟨name⟩ = ⟨p.front ++ name⟩ := by
  rw [join, if_neg (not_isAbsolute h.no_slash), front]
  split <;> rfl

/-- A path that ends in a name does not end in a slash. -/
theorem takesPart_join (p : Path) (h : IsName name) : (p.join ⟨name⟩).takesPart = false := by
  have hne : name.toList ≠ [] := fun hnil =>
    h.ne_empty (String.toList_injective (hnil.trans String.toList_empty.symm))
  have hlast : (p.front ++ name).toList.getLast? = some (name.toList.getLast hne) := by
    rw [String.toList_append, List.getLast?_append, List.getLast?_eq_some_getLast hne,
      Option.some_or]
  have hslash : name.toList.getLast hne ≠ '/' := fun heq =>
    h.no_slash (heq ▸ List.getLast_mem hne)
  rw [join_eq p h, takesPart, hlast]
  simpa using hslash

theorem front_join (p : Path) (h : IsName name) :
    (p.join ⟨name⟩).front = p.front ++ name ++ "/" := by
  rw [front, if_neg (by rw [takesPart_join p h]; exact Bool.false_ne_true), join_eq p h]

theorem components_join_of_isName (p : Path) (h : IsName name) :
    (p.join ⟨name⟩).components = p.components ++ [name].filter (· ≠ ".") := by
  rw [components_join_of_no_slash p h.no_slash]
  by_cases hdot : name = "."
  · simp [hdot]
  · simp [hdot, h.ne_empty]

/-- Names that stand between slashes are told apart. -/
theorem cut_three {xs ys zs : List Char} (hxs : '/' ∉ xs) (hys : '/' ∉ ys) (hzs : '/' ∉ zs) :
    cut (xs ++ '/' :: (ys ++ '/' :: zs)) = [xs, ys, zs] := by
  rw [cut_append_slash, cut_append_slash, cut_of_no_slash hxs, cut_of_no_slash hys,
    cut_of_no_slash hzs, List.singleton_append, List.singleton_append]

end Path

namespace Cache

variable {root root' : Path} {h h' f f' : String} {c c' : ClassName}

theorem isName_entryName (c : ClassName) : Path.IsName (entryName c) where
  ne_empty := by
    intro hempty
    have hlast := getLast?_entryName c
    rw [hempty] at hlast
    exact absurd hlast (by decide)
  no_slash := slash_not_mem_entryName c

/-! ## The path of an entry -/

/-- Behind the base, the path of an entry is the two digests and the file name. -/
theorem text_entryPath_rootFor (base : Path) (hh : Path.IsName h) (hf : Path.IsName f)
    (c : ClassName) :
    (entryPath (rootFor base h f) c).text.toList =
      base.front.toList ++ (h.toList ++ '/' :: (f.toList ++ '/' :: (entryName c).toList)) := by
  rw [entryPath, Path.join_eq _ (isName_entryName c), rootFor, Path.front_join _ hf,
    Path.front_join _ hh]
  simp only [String.toList_append, List.append_assoc]
  rfl

theorem components_rootFor (base : Path) (hh : Path.IsName h) (hf : Path.IsName f) :
    (rootFor base h f).components = base.components ++ [h, f].filter (· ≠ ".") := by
  rw [rootFor, Path.components_join_of_isName _ hf, Path.components_join_of_isName _ hh,
    List.append_assoc, ← List.filter_append, List.singleton_append]

/-- The path of an entry, below any base, tells the payload, the transforms and the class; so
does its place in a file tree, where single dots lead nowhere. -/
theorem entryPath_rootFor_eq_iff (base : Path) (hh : Path.IsName h) (hf : Path.IsName f)
    (hh' : Path.IsName h') (hf' : Path.IsName f') (hc : '.' ∉ c.text.toList)
    (hc' : '.' ∉ c'.text.toList) :
    (entryPath (rootFor base h f) c = entryPath (rootFor base h' f') c' ↔
      h = h' ∧ f = f' ∧ c = c') ∧
    ((entryPath (rootFor base h f) c).components =
        (entryPath (rootFor base h' f') c').components ↔
      [h, f].filter (· ≠ ".") = [h', f'].filter (· ≠ ".") ∧ c = c') := by
  have hclass : entryName c = entryName c' ↔ c = c' :=
    ⟨entryName_injective_of_no_dot hc hc', congrArg entryName⟩
  constructor
  · constructor
    · intro heq
      have htext : (entryPath (rootFor base h f) c).text.toList =
          (entryPath (rootFor base h' f') c').text.toList := by rw [heq]
      rw [text_entryPath_rootFor base hh hf, text_entryPath_rootFor base hh' hf'] at htext
      have hcut := congrArg Path.cut (List.append_cancel_left htext)
      rw [Path.cut_three hh.no_slash hf.no_slash (slash_not_mem_entryName c),
        Path.cut_three hh'.no_slash hf'.no_slash (slash_not_mem_entryName c')] at hcut
      obtain ⟨hpayload, hrest⟩ := List.cons.inj hcut
      obtain ⟨htransforms, hrest⟩ := List.cons.inj hrest
      obtain ⟨hname, -⟩ := List.cons.inj hrest
      exact ⟨String.toList_injective hpayload, String.toList_injective htransforms,
        hclass.mp (String.toList_injective hname)⟩
    · rintro ⟨rfl, rfl, rfl⟩
      rfl
  · rw [components_entryPath, components_entryPath, entryPlace, entryPlace,
      components_rootFor base hh hf, components_rootFor base hh' hf', List.append_singleton_inj,
      List.append_cancel_left_eq, hclass]

theorem entryPath_rootFor_eq_iff_shifted :
    Path.IsName "ab" ∧ Path.IsName "c" ∧ Path.IsName "a" ∧ Path.IsName "bc" ∧
      '.' ∉ (⟨"/A/"⟩ : ClassName).text.toList ∧
      entryPath (rootFor ⟨"cache/"⟩ "ab" "c") ⟨"/A/"⟩ ≠
        entryPath (rootFor ⟨"cache/"⟩ "a" "bc") ⟨"/A/"⟩ ∧
      (entryPath (rootFor ⟨"cache/"⟩ "ab" "c") ⟨"/A/"⟩).components ≠
        (entryPath (rootFor ⟨"cache/"⟩ "a" "bc") ⟨"/A/"⟩).components := by
  have hab : Path.IsName "ab" := ⟨by decide, by decide⟩
  have hc : Path.IsName "c" := ⟨by decide, by decide⟩
  have ha : Path.IsName "a" := ⟨by decide, by decide⟩
  have hbc : Path.IsName "bc" := ⟨by decide, by decide⟩
  have hclass : '.' ∉ (⟨"/A/"⟩ : ClassName).text.toList := by decide
  obtain ⟨hpath, hplace⟩ :=
    entryPath_rootFor_eq_iff ⟨"cache/"⟩ hab hc ha hbc hclass hclass
  refine ⟨hab, hc, ha, hbc, hclass, fun heq => ?_, fun heq => ?_⟩
  · exact absurd (hpath.mp heq).1 (by decide)
  · exact absurd (hplace.mp heq).1 (by decide)

/-! ## Directories apart -/

/-- Writing an entry in one directory leaves those in a directory beside it as they are. -/
theorem readEntry_writeEntry_of_apart
    (hlength : root'.components.length = root.components.length)
    (hne : root'.components ≠ root.components) (t : FileTree) (c c' : ClassName) (bs : Bytes) :
    readEntry root' (writeEntry root t c bs).2 c' = readEntry root' t c' := by
  have hwritten := written_writeEntry root t c bs
  have htemporary : (temporaryPlace root.components c).length =
      (entryPlace root'.components c').length := by
    rw [temporaryPlace, entryPlace, List.length_append, List.length_append, hlength,
      List.length_singleton, List.length_singleton]
  have hentry : (entryPlace root.components c).length =
      (entryPlace root'.components c').length :=
    (length_temporaryPlace root.components c c).symm.trans htemporary
  have hancestors : ∀ p ∈ FileTree.ancestors (entryPlace root'.components c'),
      (writeEntry root t c bs).2.node? p = t.node? p := fun p hp =>
    hwritten.node?_eq (FileTree.not_prefix_of_mem_ancestors hp htemporary) fun heq =>
      FileTree.not_prefix_of_mem_ancestors hp hentry (heq ▸ List.prefix_rfl)
  have hplace : (writeEntry root t c bs).2.node? (entryPlace root'.components c') =
      t.node? (entryPlace root'.components c') := by
    refine hwritten.node?_eq (fun hprefix => ?_) fun heq => ?_
    · have heq := hprefix.eq_of_length htemporary
      exact entryPlace_ne_temporaryPlace _ _ c' c heq.symm
    · rw [entryPlace, entryPlace, List.append_singleton_inj] at heq
      exact hne heq.1
  rw [readEntry_eq, readEntry_eq, FileTree.read_congr hancestors hplace]

end Cache

/-! ## The directories of attachments -/

namespace Hex

theorem exists_digit_of_mem {bs : Bytes} {x : Char} (hx : x ∈ (ofBytes bs).toList) :
    ∃ n < 16, digit n = x := by
  rw [ofBytes, String.toList_ofList, List.mem_flatMap] at hx
  obtain ⟨b, -, hx⟩ := hx
  have hb := b.toNat_lt
  simp only [ofByte, List.mem_cons, List.not_mem_nil, or_false] at hx
  rcases hx with rfl | rfl
  · exact ⟨_, by omega, rfl⟩
  · exact ⟨_, Nat.mod_lt _ (by decide), rfl⟩

/-- Neither a slash nor a dot is a digit. -/
theorem digit_ne_mark : ∀ n < 16, digit n ≠ '/' ∧ digit n ≠ '.' := by decide

end Hex

theorem Sha256.length_digest (message : Bytes) : (digest message).length = 32 := by
  simp [digest, bytesOfWord]

/-- A digest in hexadecimal is a name, and leads somewhere. -/
theorem isName_digest (message : Bytes) :
    Path.IsName (Hex.ofBytes (Sha256.digest message)) ∧
      Hex.ofBytes (Sha256.digest message) ≠ "." := by
  have hlength := Sha256.length_digest message
  refine ⟨⟨fun hempty => ?_, fun hslash => ?_⟩, fun hdot => ?_⟩
  · rw [Hex.ofBytes, String.ofList_eq_empty_iff, List.flatMap_eq_nil_iff] at hempty
    cases hdigest : Sha256.digest message with
    | nil =>
      rw [hdigest] at hlength
      cases hlength
    | cons b bs => exact absurd (hempty b (hdigest ▸ List.mem_cons_self)) (List.cons_ne_nil _ _)
  · obtain ⟨n, hn, heq⟩ := Hex.exists_digit_of_mem hslash
    exact (Hex.digit_ne_mark n hn).1 heq
  · have hmem : '.' ∈ (Hex.ofBytes (Sha256.digest message)).toList := by
      rw [hdot]
      decide
    obtain ⟨n, hn, heq⟩ := Hex.exists_digit_of_mem hmem
    exact (Hex.digit_ne_mark n hn).2 heq

namespace AgentConfig

variable {config config' : AgentConfig}

/-- The directory of the cache for a payload is named after it and after the transforms. -/
theorem components_cacheRoot (config : AgentConfig) (payload : Bytes) :
    (config.cacheRoot (.ofBytes payload)).components =
      config.cacheBase.components ++
        [(PayloadHash.ofBytes payload).text, Transform.fingerprint config.mode.transforms] := by
  have hpayload : Path.IsName (PayloadHash.ofBytes payload).text ∧
      (PayloadHash.ofBytes payload).text ≠ "." := isName_digest payload
  have htransforms : Path.IsName (Transform.fingerprint config.mode.transforms) ∧
      Transform.fingerprint config.mode.transforms ≠ "." := isName_digest _
  rw [cacheRoot, Cache.components_rootFor config.cacheBase hpayload.1 htransforms.1,
    List.filter_cons_of_pos (by simpa using hpayload.2),
    List.filter_cons_of_pos (by simpa using htransforms.2), List.filter_nil]

/-- Below one base, the entries of two attachments are apart unless the digests of their payloads
and of their transforms are the same. -/
theorem readEntry_writeEntry_of_digest_ne (hbase : config.cacheBase = config'.cacheBase)
    {payload payload' : Bytes}
    (hne : PayloadHash.ofBytes payload ≠ PayloadHash.ofBytes payload' ∨
      Transform.fingerprint config.mode.transforms ≠
        Transform.fingerprint config'.mode.transforms)
    (files : FileTree) (c c' : ClassName) (bytes : Bytes) :
    Cache.readEntry (config'.cacheRoot (.ofBytes payload'))
        (Cache.writeEntry (config.cacheRoot (.ofBytes payload)) files c bytes).2 c' =
      Cache.readEntry (config'.cacheRoot (.ofBytes payload')) files c' := by
  refine Cache.readEntry_writeEntry_of_apart ?_ (fun heq => ?_) files c c' bytes
  · simp only [components_cacheRoot, hbase, List.length_append, List.length_cons, List.length_nil]
  · rw [components_cacheRoot, components_cacheRoot, hbase, List.append_cancel_left_eq] at heq
    obtain ⟨hpayload, hrest⟩ := List.cons.inj heq
    obtain ⟨htransforms, -⟩ := List.cons.inj hrest
    rcases hne with hne | hne
    · exact hne (congrArg PayloadHash.mk hpayload.symm)
    · exact hne htransforms.symm

end AgentConfig

end DexWeave
