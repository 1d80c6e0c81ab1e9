import Zerogw.Polling.Arguments
import Zerogw.Server.Basic

/-!
# The public id of a comet connection

The client of a comet connection gets its id in hexadecimal digits, after all but the random part of
it has been combined with a digest of that part, and sends it back as the parameter `id`.
-/

namespace Zerogw

variable {cfg : Config} {args : CometArgs} {uid value bytes : Bytes} {b c d c' d' : UInt8}

/-! ### Digits -/

/-- An upper-case hexadecimal digit. -/
def IsHexDigit (c : UInt8) : Prop := 48 ≤ c ∧ c ≤ 57 ∨ 65 ≤ c ∧ c ≤ 70

lemma hexValue_isSome : (∃ v, hexValue c = some v) ↔ IsHexDigit c := by
  rw [hexValue, IsHexDigit]
  split_ifs with h₁ h₂
  · exact iff_of_true ⟨_, rfl⟩ (Or.inl h₁)
  · exact iff_of_true ⟨_, rfl⟩ (Or.inr h₂)
  · simp [h₁, h₂]

/-- A digit is written as it was read. -/
lemma ofNat_of_hexValue (h : hexValue c = some c') : c'.toNat < 16 ∧
    UInt8.ofNat (if c'.toNat < 10 then 48 + c'.toNat else 55 + c'.toNat) = c := by
  rw [hexValue] at h
  split_ifs at h with h₁ h₂
  · cases h
    have hle : 48 ≤ c.toNat := UInt8.le_iff_toNat_le.mp h₁.1
    have hge : c.toNat ≤ 57 := UInt8.le_iff_toNat_le.mp h₁.2
    have hsub : (c - 48).toNat = c.toNat - 48 := UInt8.toNat_sub_of_le _ _ h₁.1
    rw [hsub, if_pos (by omega), Nat.add_sub_cancel' hle, UInt8.ofNat_toNat]
    exact ⟨by omega, rfl⟩
  · cases h
    have hle : 65 ≤ c.toNat := UInt8.le_iff_toNat_le.mp h₂.1
    have hge : c.toNat ≤ 70 := UInt8.le_iff_toNat_le.mp h₂.2
    have h55 : (55 : UInt8) ≤ c := UInt8.le_trans (by decide) h₂.1
    have hsub : (c - 55).toNat = c.toNat - 55 := UInt8.toNat_sub_of_le _ _ h55
    rw [hsub, if_neg (by omega), Nat.add_sub_cancel' (by omega), UInt8.ofNat_toNat]
    exact ⟨by omega, rfl⟩

lemma hexValue_ofNat {n : Nat} (h : n < 16) :
    hexValue (UInt8.ofNat (if n < 10 then 48 + n else 55 + n)) = some (UInt8.ofNat n) := by
  have hall : ∀ n : Fin 16, hexValue (UInt8.ofNat (if n.val < 10 then 48 + n.val else 55 + n.val)) =
      some (UInt8.ofNat n.val) := by decide
  exact hall ⟨n, h⟩

lemma toNat_nibbles (hc : c'.toNat < 16) (hd : d'.toNat < 16) :
    (c' <<< 4 ||| d').toNat = 16 * c'.toNat + d'.toNat := by
  have hshift : (c' <<< 4).toNat = c'.toNat <<< 4 := by
    rw [UInt8.toNat_shiftLeft]
    apply Nat.mod_eq_of_lt
    rw [Nat.shiftLeft_eq]
    show c'.toNat * 2 ^ 4 < 2 ^ 8
    omega
  rw [UInt8.toNat_or, hshift, ← Nat.shiftLeft_add_eq_or_of_lt hd, Nat.shiftLeft_eq, Nat.mul_comm]

lemma hexByte_of_hexValue (hc : hexValue c = some c') (hd : hexValue d = some d') :
    hexByte (c' <<< 4 ||| d') = [c, d] := by
  obtain ⟨hc16, hc⟩ := ofNat_of_hexValue hc
  obtain ⟨hd16, hd⟩ := ofNat_of_hexValue hd
  have hdiv : (16 * c'.toNat + d'.toNat) / 16 = c'.toNat := by omega
  have hmod : (16 * c'.toNat + d'.toNat) % 16 = d'.toNat := by omega
  rw [hexByte, toNat_nibbles hc16 hd16, hdiv, hmod]
  exact congrArg₂ (fun c d => [c, d]) hc hd

lemma exists_hexValue (b : UInt8) : ∃ c d c' d', hexByte b = [c, d] ∧ hexValue c = some c' ∧
    hexValue d = some d' ∧ c' <<< 4 ||| d' = b := by
  have hb := b.toNat_lt
  have hhigh : b.toNat / 16 < 16 := by omega
  have hlow : b.toNat % 16 < 16 := by omega
  refine ⟨_, _, _, _, rfl, hexValue_ofNat hhigh, hexValue_ofNat hlow, ?_⟩
  have hof : ∀ n < 16, (UInt8.ofNat n).toNat = n := fun n hn =>
    UInt8.toNat_ofNat_of_lt' (hn.trans (by decide))
  apply UInt8.toNat_inj.mp
  rw [toNat_nibbles (by rwa [hof _ hhigh]) (by rwa [hof _ hlow]), hof _ hhigh, hof _ hlow]
  exact Nat.div_add_mod b.toNat 16

/-! ### Texts -/

/-- Digits are read back. -/
lemma readHex_flatMap (uid : Bytes) : readHex (uid.flatMap hexByte) = some uid := by
  induction uid with
  | nil => rfl
  | cons b uid ih =>
    obtain ⟨c, d, c', d', hb, hc, hd, rfl⟩ := exists_hexValue b
    rw [List.flatMap_cons, hb]
    exact readHex_cons_cons.mpr ⟨c', d', uid, hc, hd, ih, rfl⟩

/-- Texts with an even number of characters. -/
lemma eq_nil_of_short (heven : value.length % 2 = 0)
    (hshort : ∀ c d rest, value = c :: d :: rest → False) : value = [] := by
  match value with
  | [] => rfl
  | [c] => cases heven
  | c :: d :: rest => exact absurd rfl (hshort c d rest)

lemma flatMap_of_readHex (heven : value.length % 2 = 0) (h : readHex value = some bytes) :
    bytes.flatMap hexByte = value := by
  induction value using readHex.induct generalizing bytes with
  | case1 c d value ih =>
    obtain ⟨c', d', rest, hc, hd, hrest, rfl⟩ := readHex_cons_cons.mp h
    rw [List.length_cons, List.length_cons] at heven
    rw [List.flatMap_cons, hexByte_of_hexValue hc hd, ih (by omega) hrest]
    rfl
  | case2 value hshort =>
    rw [eq_nil_of_short heven hshort] at h ⊢
    cases h
    rfl

/-- A text can be read if all of its characters are digits. -/
lemma exists_readHex_iff (heven : value.length % 2 = 0) :
    (∃ bytes, readHex value = some bytes) ↔ ∀ c ∈ value, IsHexDigit c := by
  induction value using readHex.induct with
  | case1 c d value ih =>
    rw [List.length_cons, List.length_cons] at heven
    rw [List.forall_mem_cons, List.forall_mem_cons, ← ih (by omega), ← hexValue_isSome,
      ← hexValue_isSome]
    constructor
    · rintro ⟨bytes, h⟩
      obtain ⟨c', d', rest, hc, hd, hrest, -⟩ := readHex_cons_cons.mp h
      exact ⟨⟨c', hc⟩, ⟨d', hd⟩, rest, hrest⟩
    · rintro ⟨⟨c', hc⟩, ⟨d', hd⟩, rest, hrest⟩
      exact ⟨_, readHex_cons_cons.mpr ⟨c', d', rest, hc, hd, hrest, rfl⟩⟩
  | case2 value hshort =>
    rw [eq_nil_of_short heven hshort]
    exact iff_of_true ⟨[], rfl⟩ (List.forall_mem_nil _)

/-! ### Masks -/

/-- The byte that is applied to the `i`th byte of an id. -/
def maskByte (cfg : Config) (uid : Bytes) (i : Nat) : UInt8 :=
  ((cfg.md5 (uid.drop (uidLen - uidNRandom) ++ cfg.randomData))[i % 16]?).getD 0

lemma getElem?_unmask (i : Nat) : (unmask cfg uid)[i]? =
    uid[i]?.map fun b => if i < uidLen - uidNRandom then b ^^^ maskByte cfg uid i else b :=
  List.getElem?_mapIdx

lemma length_unmask : (unmask cfg uid).length = uid.length := List.length_mapIdx

/-- The random part stays as it is. -/
lemma drop_unmask :
    (unmask cfg uid).drop (uidLen - uidNRandom) = uid.drop (uidLen - uidNRandom) := by
  apply List.ext_getElem?
  intro i
  rw [List.getElem?_drop, List.getElem?_drop, getElem?_unmask]
  simp only [if_neg (Nat.not_lt.mpr (Nat.le_add_right _ i))]
  exact Option.map_id'

lemma maskByte_unmask : maskByte cfg (unmask cfg uid) = maskByte cfg uid := by
  funext i
  rw [maskByte, drop_unmask, maskByte]

/-- The mask is its own inverse. -/
lemma unmask_unmask : unmask cfg (unmask cfg uid) = uid := by
  apply List.ext_getElem?
  intro i
  rw [getElem?_unmask, getElem?_unmask, maskByte_unmask, Option.map_map]
  by_cases hi : i < uidLen - uidNRandom
  · simp only [if_pos hi]
    rw [show ((fun b => b ^^^ maskByte cfg uid i) ∘ fun b => b ^^^ maskByte cfg uid i) = id by
      funext b
      exact (UInt8.xor_assoc ..).trans (by simp), Option.map_id_apply]
  · simp only [if_neg hi]
    exact Option.map_id'

/-- The text that a client gets. -/
lemma publicUid_eq (hlen : uid.length = uidLen) :
    publicUid cfg uid = (unmask cfg uid).flatMap hexByte := by
  apply congrArg (List.flatMap hexByte)
  apply List.ext_getElem?
  intro i
  rw [getElem?_unmask]
  have htake : ∀ f : UInt8 × Nat → UInt8,
      ((uid.take (uidLen - uidNRandom)).zipIdx.map f).length = uidLen - uidNRandom := by
    intro f
    rw [List.length_map, List.length_zipIdx, List.length_take, hlen]
    rfl
  by_cases hi : i < uidLen - uidNRandom
  · rw [List.getElem?_append_left ((htake _).symm ▸ hi), List.getElem?_map, List.getElem?_zipIdx,
      List.getElem?_take_of_lt hi, Option.map_map]
    simp only [if_pos hi, Nat.zero_add]
    rfl
  · have hge := Nat.not_lt.mp hi
    rw [List.getElem?_append_right ((htake _).symm ▸ hge), htake, List.getElem?_drop,
      Nat.add_sub_cancel' hge]
    simp only [if_neg hi]
    exact Option.map_id'.symm

/-! ### The parameter -/

lemma addLine_id_of_some (h : readId cfg value = some uid) (hlen : uid.length = uidLen) :
    addLine cfg (str "id") value args = some { args with uid := uid, uid_length := hlen } := by
  rw [addLine, if_pos rfl]
  split
  · next hnone =>
    rw [h] at hnone
    cases hnone
  · next uid' hsome =>
    rw [h] at hsome
    cases hsome
    rfl

lemma addLine_id_of_none (h : readId cfg value = none) :
    addLine cfg (str "id") value args = none := by
  rw [addLine, if_pos rfl]
  split
  · rfl
  · next uid' hsome =>
    rw [h] at hsome
    cases hsome

lemma readId_of_readHex (hlen : value.length = 2 * uidLen) (h : readHex value = some bytes) :
    readId cfg value = some (unmask cfg bytes) := by
  rw [readId, if_neg (not_not.mpr (hlen.trans (Nat.mul_comm _ _))), h]
  rfl

lemma length_flatMap_hexByte : (uid.flatMap hexByte).length = 2 * uid.length := by
  induction uid with
  | nil => rfl
  | cons b uid ih =>
    rw [List.flatMap_cons, List.length_append, ih, List.length_cons, hexByte]
    simp only [List.length_cons, List.length_nil]
    omega

lemma readId_publicUid (hlen : uid.length = uidLen) :
    readId cfg (publicUid cfg uid) = some uid := by
  rw [publicUid_eq hlen, readId_of_readHex _ (readHex_flatMap _), unmask_unmask]
  rw [length_flatMap_hexByte, length_unmask, hlen]

/-- The public id of a connection is read as its id; a text of as many digits is the public id of
what is read from it; any other text is refused. -/
theorem public_id_lossless (cfg : Config) (args : CometArgs) :
    (∀ (uid : Bytes) (hlen : uid.length = uidLen), addLine cfg (str "id") (publicUid cfg uid) args =
      some { args with uid := uid, uid_length := hlen }) ∧
    (∀ value : Bytes, value.length = 2 * uidLen → (∀ c ∈ value, IsHexDigit c) →
      ∃ (uid : Bytes) (hlen : uid.length = uidLen), publicUid cfg uid = value ∧
        addLine cfg (str "id") value args = some { args with uid := uid, uid_length := hlen }) ∧
    (∀ value : Bytes, value.length ≠ 2 * uidLen ∨ (∃ c ∈ value, ¬ IsHexDigit c) →
      addLine cfg (str "id") value args = none) := by
  refine ⟨fun uid hlen => addLine_id_of_some (readId_publicUid hlen) hlen, ?_, ?_⟩
  · intro value hlen hdigits
    have heven : value.length % 2 = 0 := by omega
    obtain ⟨bytes, hbytes⟩ := (exists_readHex_iff heven).mpr hdigits
    have hread : readId cfg value = some (unmask cfg bytes) := readId_of_readHex hlen hbytes
    have huid := length_readId hread
    refine ⟨unmask cfg bytes, huid, ?_, addLine_id_of_some hread huid⟩
    rw [publicUid_eq huid, unmask_unmask, flatMap_of_readHex heven hbytes]
  · intro value hother
    apply addLine_id_of_none
    rw [readId]
    by_cases hlen : value.length = 2 * uidLen
    · have heven : value.length % 2 = 0 := by omega
      have hnone : readHex value = none := by
        by_contra hsome
        obtain ⟨bytes, hbytes⟩ := Option.ne_none_iff_exists'.mp hsome
        obtain ⟨c, hc, hdigit⟩ := hother.resolve_left (not_not.mpr hlen)
        exact hdigit ((exists_readHex_iff heven).mp ⟨bytes, hbytes⟩ c hc)
      rw [hnone]
      split_ifs <;> rfl
    · rw [if_pos (fun h => hlen (h.trans (Nat.mul_comm _ _)))]

end Zerogw
