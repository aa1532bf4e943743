import Mathlib.Data.List.GetD
import Mathlib.Tactic.Lemma
import Mathlib.Tactic.Ring
import MessageCatalog.Digest

/-!
# What the digests are

A pass over a byte string is described block by block in plain arithmetic, and is the same whatever
way it gets at its bytes, as long as that way is right about the bytes that are there: a pass asks
for no others. From the two passes follow the fingerprint and the id of a message as numbers.
-/

namespace MessageCatalog.Digest

/-! ## The hash by blocks -/

/-- The number that bytes spell, the lowest first. -/
def littleEndian : List UInt8 → Nat
  | [] => 0
  | b :: rest => b.toNat + 2 ^ 8 * littleEndian rest

/-- The number that bytes spell, modulo `2 ^ 32`. -/
def wordOf (bytes : List UInt8) : UInt32 :=
  UInt32.ofNat (littleEndian bytes)

/-- Add the three words of a block of twelve bytes, and mix. -/
def Lanes.takeBlock (l : Lanes) (block : List UInt8) : Lanes :=
  (l.add (wordOf (block.take 4)) (wordOf ((block.drop 4).take 4)) (wordOf (block.drop 8))).mix

/-- Add the bytes behind the last block, filled up with zeros to eleven, and mix. The total length
stands below the last three of them. -/
def Lanes.takeTail (l : Lanes) (length : Nat) (tail : List UInt8) : Lanes :=
  let padded := tail ++ List.replicate (11 - tail.length) 0
  let byte (i : Nat) : Nat := (padded.getD i 0).toNat
  (l.add (wordOf (padded.take 4)) (wordOf ((padded.drop 4).take 4))
    (UInt32.ofNat (length + 2 ^ 8 * byte 8 + 2 ^ 16 * byte 9 + 2 ^ 24 * byte 10))).mix

/-- The block of twelve bytes with this number. -/
def block (bytes : List UInt8) (number : Nat) : List UInt8 :=
  (bytes.drop (12 * number)).take 12

/-- The hash of a byte string: block by block, then the bytes behind the last block. -/
def blockHash (seed : UInt32) (bytes : List UInt8) : UInt32 :=
  let blocks := bytes.length / 12
  let lanes := (List.range blocks).foldl (fun l number => l.takeBlock (block bytes number))
    (⟨0x9e3779b9, 0x9e3779b9, seed⟩ : Lanes)
  (lanes.takeTail bytes.length (bytes.drop (12 * blocks))).c

/-! ## Bytes as numbers -/

/-- Bytes of zeros are the number zero. -/
lemma littleEndian_zeros (count : Nat) : littleEndian (List.replicate count 0) = 0 := by
  induction count with
  | zero => rfl
  | succ count ih =>
    rw [List.replicate_succ, littleEndian, ih]
    rfl

/-- Zeros at the end of the bytes do not count. -/
lemma littleEndian_append_zeros (bytes : List UInt8) (count : Nat) :
    littleEndian (bytes ++ List.replicate count 0) = littleEndian bytes := by
  induction bytes with
  | nil => exact littleEndian_zeros count
  | cons b bytes ih => rw [List.cons_append, littleEndian, ih, littleEndian]

/-- The last byte has the highest place. -/
lemma littleEndian_concat (bytes : List UInt8) (b : UInt8) :
    littleEndian (bytes ++ [b]) = littleEndian bytes + 2 ^ (8 * bytes.length) * b.toNat := by
  induction bytes with
  | nil => simp [littleEndian]
  | cons first bytes ih =>
    rw [List.cons_append, littleEndian, ih, littleEndian, List.length_cons]
    ring

/-- A slice spells the same number when zeros are added behind the bytes. -/
lemma littleEndian_slice_append_zeros (bytes : List UInt8) (zeros start count : Nat) :
    littleEndian (((bytes ++ List.replicate zeros 0).drop start).take count) =
      littleEndian ((bytes.drop start).take count) := by
  rw [List.drop_append, List.drop_replicate, List.take_append, List.take_replicate,
    littleEndian_append_zeros]

/-- A shifted byte is a multiple of a power of two. -/
lemma toUInt32_shiftLeft (b : UInt8) {shift : UInt32} (h : shift.toNat < 32) :
    b.toUInt32 <<< shift = UInt32.ofNat (2 ^ shift.toNat * b.toNat) := by
  rw [← UInt32.toNat_inj, UInt32.toNat_shiftLeft, Nat.mod_eq_of_lt h, UInt8.toNat_toUInt32,
    UInt32.toNat_ofNat', Nat.shiftLeft_eq, Nat.mul_comm]

/-- A word is its four bytes, the lowest first. -/
lemma word_eq (b0 b1 b2 b3 : UInt8) : word b0 b1 b2 b3 = wordOf [b0, b1, b2, b3] := by
  rw [word, toUInt32_shiftLeft b1 (by decide), toUInt32_shiftLeft b2 (by decide),
    toUInt32_shiftLeft b3 (by decide), ← UInt32.ofNat_uInt8ToNat, ← UInt32.ofNat_add,
    ← UInt32.ofNat_add, ← UInt32.ofNat_add, wordOf]
  congr 1
  simp only [littleEndian, UInt32.reduceToNat]
  omega

/-- A slice that is not empty begins with the byte at its start. -/
lemma take_drop_succ {bytes : List UInt8} {start : Nat} (h : start < bytes.length) (count : Nat) :
    (bytes.drop start).take (count + 1) = bytes[start] :: (bytes.drop (start + 1)).take count := by
  rw [List.drop_eq_getElem_cons h, List.take_succ_cons]

/-- The last three of eleven bytes above a length. -/
lemma length_add_bytes (length : Nat) {padded : List UInt8} (h : padded.length = 11) :
    length + 2 ^ 8 * (padded.getD 8 0).toNat + 2 ^ 16 * (padded.getD 9 0).toNat +
        2 ^ 24 * (padded.getD 10 0).toNat =
      length + 2 ^ 8 * littleEndian ((padded.drop 8).take 3) := by
  have last : (padded.drop 8).take 3 = [padded.getD 8 0, padded.getD 9 0, padded.getD 10 0] := by
    rw [take_drop_succ (by omega), take_drop_succ (by omega), take_drop_succ (by omega),
      List.take_zero, List.getD_eq_getElem, List.getD_eq_getElem, List.getD_eq_getElem]
  rw [last]
  simp only [littleEndian]
  omega

/-- The zeros that fill up the bytes behind the last block add nothing. -/
lemma Lanes.takeTail_eq (l : Lanes) (length : Nat) {tail : List UInt8} (h : tail.length < 12) :
    l.takeTail length tail =
      (l.add (wordOf (tail.take 4)) (wordOf ((tail.drop 4).take 4))
        (UInt32.ofNat length +
          UInt32.ofNat (2 ^ 8 * littleEndian ((tail.drop 8).take 3)))).mix := by
  have filled : (tail ++ List.replicate (11 - tail.length) 0).length = 11 := by
    rw [List.length_append, List.length_replicate]
    omega
  have first := littleEndian_slice_append_zeros tail (11 - tail.length) 0 4
  rw [List.drop_zero, List.drop_zero] at first
  rw [takeTail]
  dsimp only
  rw [length_add_bytes length filled, wordOf, first, wordOf, littleEndian_slice_append_zeros,
    littleEndian_slice_append_zeros, UInt32.ofNat_add, ← wordOf, ← wordOf]

/-! ## Access to bytes -/

section Pass

variable {m : Type → Type} [Monad m] {access : Access m} {bytes : List UInt8}

/-- Access that is right about the bytes that are there. -/
structure Access.Reads (access : Access m) (bytes : List UInt8) : Prop where
  word : ∀ index, index + 4 ≤ bytes.length →
    access.word index = pure (wordOf ((bytes.drop index).take 4))
  byte : ∀ index, (h : index < bytes.length) → access.byte index = pure bytes[index]

variable [LawfulMonad m]

/-- A byte that is added behind a slice makes the slice longer. -/
lemma add_slice_succ (x : UInt32) {shift shift' : UInt32} {index count : Nat}
    (hindex : index + count < bytes.length) (hshift : shift'.toNat = shift.toNat + 8 * count)
    (hsmall : shift'.toNat < 32) :
    x + UInt32.ofNat (2 ^ shift.toNat * littleEndian ((bytes.drop index).take count)) +
        bytes[index + count].toUInt32 <<< shift' =
      x + UInt32.ofNat (2 ^ shift.toNat * littleEndian ((bytes.drop index).take (count + 1))) := by
  have longer : (bytes.drop index).take (count + 1) =
      (bytes.drop index).take count ++ [bytes[index + count]] := by
    rw [List.take_succ_eq_append_getElem (by rw [List.length_drop]; omega), List.getElem_drop]
  have length : ((bytes.drop index).take count).length = count := by
    rw [List.length_take, List.length_drop]
    omega
  rw [toUInt32_shiftLeft _ hsmall, UInt32.add_assoc, ← UInt32.ofNat_add, longer,
    littleEndian_concat, length, hshift]
  congr 2
  ring

/-- Up to three bytes that are added to a word are a slice as a number. -/
lemma addBytes_of_reads (h : access.Reads bytes) {count index : Nat} (hcount : count ≤ 3)
    (hindex : index + count ≤ bytes.length) {shift : UInt32} (hshift : shift.toNat ≤ 8)
    (x : UInt32) :
    addBytes access shift count index x =
      pure (x + UInt32.ofNat (2 ^ shift.toNat * littleEndian ((bytes.drop index).take count))) := by
  have zero :
      x = x + UInt32.ofNat (2 ^ shift.toNat * littleEndian ((bytes.drop index).take 0)) := by
    simp [littleEndian]
  have h8 : (shift + 8).toNat = shift.toNat + 8 * 1 := by
    rw [UInt32.toNat_add, show (8 : UInt32).toNat = 8 from rfl]
    omega
  have h16 : (shift + 16).toNat = shift.toNat + 8 * 2 := by
    rw [UInt32.toNat_add, show (16 : UInt32).toNat = 16 from rfl]
    omega
  -- The bytes are looked at one after the other, and each makes the slice longer.
  match count, hcount with
  | 0, _ =>
    rw [← zero]
    simp [addBytes]
  | 1, _ =>
    rw [← add_slice_succ x (by omega) rfl (by omega), ← zero]
    simp [addBytes, h.byte index (by omega)]
  | 2, _ =>
    rw [← add_slice_succ x (by omega) h8 (by omega), ← add_slice_succ x (by omega) rfl (by omega),
      ← zero]
    simp [addBytes, h.byte index (by omega), h.byte (index + 1) (by omega)]
  | 3, _ =>
    rw [← add_slice_succ x (by omega) h16 (by omega), ← add_slice_succ x (by omega) h8 (by omega),
      ← add_slice_succ x (by omega) rfl (by omega), ← zero]
    simp [addBytes, h.byte index (by omega), h.byte (index + 1) (by omega),
      h.byte (index + 1 + 1) (by omega)]

/-- The bytes behind the last block are taken in as if they were filled up with zeros. -/
lemma absorbTail_of_reads (h : access.Reads bytes) {index : Nat} (hindex : index ≤ bytes.length)
    (hleft : bytes.length < index + 12) (l : Lanes) :
    absorbTail access bytes.length index l = pure (l.takeTail bytes.length (bytes.drop index)) := by
  have short : (bytes.drop index).length < 12 := by
    rw [List.length_drop]
    omega
  have all (start count : Nat) (hcount : bytes.length ≤ start + count) :
      (bytes.drop start).take count = bytes.drop start :=
    List.take_of_length_le (by rw [List.length_drop]; omega)
  rw [Lanes.takeTail_eq l bytes.length short, absorbTail]
  by_cases four : 4 ≤ bytes.length - index
  · rw [if_pos four, h.word index (by omega), pure_bind]
    by_cases eight : 8 ≤ bytes.length - index
    · rw [if_pos eight, h.word (index + 4) (by omega), pure_bind,
        addBytes_of_reads h (by omega) (by omega) (by decide), pure_bind, List.drop_drop,
        List.drop_drop, all (index + 8) _ (by omega), all (index + 8) 3 (by omega),
        UInt32.add_assoc]
      rfl
    · rw [if_neg eight, addBytes_of_reads h (by omega) (by omega) (by decide), pure_bind,
        List.drop_drop, List.drop_drop, all (index + 4) _ (by omega),
        all (index + 4) 4 (by omega), List.drop_eq_nil_of_le (i := index + 8) (by omega)]
      simp [Lanes.add, wordOf, littleEndian]
  · rw [if_neg four, addBytes_of_reads h (by omega) (by omega) (by decide), pure_bind,
      List.drop_drop, List.drop_drop, all index _ (by omega), all index 4 (by omega),
      List.drop_eq_nil_of_le (i := index + 4) (by omega),
      List.drop_eq_nil_of_le (i := index + 8) (by omega)]
    simp [Lanes.add, wordOf, littleEndian]

/-- The blocks from one with this number on are taken in one after the other. -/
lemma absorb_of_reads (h : access.Reads bytes) (number count : Nat)
    (hcount : number + count = bytes.length / 12) (l : Lanes) :
    absorb access bytes.length (12 * number) l =
      pure ((List.range' number count).foldl (fun l number => l.takeBlock (block bytes number)) l,
        12 * (bytes.length / 12)) := by
  induction count generalizing number l with
  | zero =>
    rw [absorb, if_neg (by omega), ← hcount]
    rfl
  | succ count ih =>
    have words : (l.add (wordOf ((bytes.drop (12 * number)).take 4))
        (wordOf ((bytes.drop (12 * number + 4)).take 4))
        (wordOf ((bytes.drop (12 * number + 8)).take 4))).mix =
          l.takeBlock (block bytes number) := by
      rw [Lanes.takeBlock, block, List.take_take, List.drop_take, List.take_take, List.drop_take,
        List.drop_drop, List.drop_drop]
      rfl
    have next := ih (number + 1) (by omega) (l.takeBlock (block bytes number))
    rw [absorb, if_pos (by omega), h.word _ (by omega), pure_bind, h.word _ (by omega), pure_bind,
      h.word _ (by omega), pure_bind, words, List.range'_succ, List.foldl_cons, ← Nat.mul_succ,
      next]

/-- A pass is the hash by blocks, whatever way it gets at its bytes. -/
theorem pass_of_reads (h : access.Reads bytes) (seed : UInt32) :
    pass access bytes.length seed = pure (blockHash seed bytes) := by
  have blocks := absorb_of_reads h 0 _ (Nat.zero_add _) ⟨golden, golden, seed⟩
  rw [pass, blocks, pure_bind]
  dsimp only
  rw [absorbTail_of_reads h (by omega) (by omega), pure_bind, blockHash, List.range_eq_range']
  rfl

end Pass

/-- Inside the bytes a word is the number of the next four of them. -/
lemma wordAt?_eq {bytes : ByteArray} {index : Nat} (h : index + 4 ≤ bytes.size) :
    wordAt? bytes index = some (wordOf ((bytes.data.toList.drop index).take 4)) := by
  have length : bytes.data.toList.length = bytes.size := rfl
  rw [wordAt?, dif_pos h, word_eq, take_drop_succ (by omega), take_drop_succ (by omega),
    take_drop_succ (by omega), take_drop_succ (by omega)]
  rfl

/-- The bytes are those of the list. -/
lemma getElem?_eq {bytes : ByteArray} {index : Nat} (h : index < bytes.data.toList.length) :
    bytes[index]? = some bytes.data.toList[index] :=
  getElem?_pos bytes index h

/-- Access to a byte string that fails where it has no bytes. -/
def Access.checked (bytes : ByteArray) : Access Option where
  word index := wordAt? bytes index
  byte index := bytes[index]?

/-- The access that checks each index reads the bytes that are there, and nothing behind them. -/
lemma Access.reads_checked (bytes : ByteArray) : (checked bytes).Reads bytes.data.toList where
  word _ h := wordAt?_eq h
  byte _ h := getElem?_eq h

/-- The access that puts zeros behind the bytes reads the bytes that are there. -/
lemma Access.reads_padded (bytes : ByteArray) : (padded bytes).Reads bytes.data.toList where
  word _ h := congrArg (fun found => found.getD 0) (wordAt?_eq h)
  byte _ h := congrArg (fun found => found.getD 0) (getElem?_eq h)

/-- The hash is computed block by block. -/
lemma hash32_eq (seed : UInt32) (bytes : ByteArray) :
    hash32 seed bytes = blockHash seed bytes.data.toList := by
  have reads := pass_of_reads (Access.reads_padded bytes) seed
  exact congrArg Id.run reads

/-! ## Fingerprints and ids as numbers -/

/-- Two halves side by side. -/
lemma toNat_halves (high low : UInt32) :
    ((high.toUInt64 <<< 32) ||| low.toUInt64).toNat = high.toNat * 2 ^ 32 + low.toNat := by
  have hhigh := high.toNat_lt
  have shifted : (high.toUInt64 <<< 32).toNat = high.toNat <<< 32 := by
    rw [UInt64.toNat_shiftLeft, UInt32.toNat_toUInt64, show (32 : UInt64).toNat % 64 = 32 from rfl,
      Nat.shiftLeft_eq]
    omega
  rw [UInt64.toNat_or, shifted, UInt32.toNat_toUInt64,
    ← Nat.shiftLeft_add_eq_or_of_lt low.toNat_lt, Nat.shiftLeft_eq]

/-- A fingerprint is two hashes of the text side by side, changed where they would be zero or
one. -/
lemma toNat_fingerprint (text : String) :
    (fingerprint text).toNat =
      let high := blockHash 0 text.toUTF8.data.toList
      let low := blockHash 102072 text.toUTF8.data.toList
      let joined := high.toNat * 2 ^ 32 + low.toNat
      if joined = 0 ∨ joined = 1 then
        (high ^^^ 0x130f9bef).toNat * 2 ^ 32 + (low ^^^ 0x94a0a928).toNat
      else joined := by
  rw [fingerprint, hash32_eq, hash32_eq, lowSeed]
  generalize blockHash 0 text.toUTF8.data.toList = high
  generalize blockHash 102072 text.toUTF8.data.toList = low
  have unused : (high = 0 ∧ (low = 0 ∨ low = 1)) ↔
      (high.toNat * 2 ^ 32 + low.toNat = 0 ∨ high.toNat * 2 ^ 32 + low.toNat = 1) := by
    rw [← UInt32.toNat_inj, ← UInt32.toNat_inj, ← UInt32.toNat_inj,
      show (0 : UInt32).toNat = 0 from rfl, show (1 : UInt32).toNat = 1 from rfl]
    omega
  dsimp only
  rw [apply_ite UInt64.toNat, toNat_halves, toNat_halves]
  exact if_congr unused rfl rfl

/-- A fingerprint is neither zero nor one. -/
lemma fingerprint_ne (text : String) : fingerprint text ≠ 0 ∧ fingerprint text ≠ 1 := by
  have value := toNat_fingerprint text
  generalize blockHash 0 text.toUTF8.data.toList = high at value
  generalize blockHash 102072 text.toUTF8.data.toList = low at value
  dsimp only at value
  rw [ne_eq, ne_eq, ← UInt64.toNat_inj, ← UInt64.toNat_inj, value,
    show (0 : UInt64).toNat = 0 from rfl, show (1 : UInt64).toNat = 1 from rfl]
  split
  case isTrue unused =>
    -- The high half is zero here, so the changed one is the constant.
    have zero : high = 0 := by
      rw [← UInt32.toNat_inj, show (0 : UInt32).toNat = 0 from rfl]
      omega
    rw [zero, UInt32.zero_xor, show (0x130f9bef : UInt32).toNat = 0x130f9bef from rfl]
    omega
  case isFalse used => exact not_or.1 used

/-- A rotation by one is that of the bits. -/
lemma toNat_rotateOne (x : UInt64) : (rotateOne x).toNat = (x.toBitVec.rotateLeft 1).toNat := by
  rw [BitVec.rotateLeft_def, ← UInt64.toNat_toBitVec, rotateOne, UInt64.toBitVec_or,
    UInt64.toBitVec_shiftLeft, UInt64.toBitVec_shiftRight]
  rfl

/-- The mask drops the highest bit. -/
lemma toNat_and_mask (x : UInt64) : (x &&& 0x7fffffffffffffff).toNat = x.toNat % 2 ^ 63 := by
  rw [UInt64.toNat_and]
  exact Nat.and_two_pow_sub_one_eq_mod x.toNat 63

/-- The id of a message is a number of 63 bits, made of the fingerprints of its text and meaning. -/
lemma messageId_eq (text meaning : String) :
    messageId text meaning =
      toString ((if meaning = "" then (fingerprint text).toNat
        else ((fingerprint text).toBitVec.rotateLeft 1).toNat + (fingerprint meaning).toNat) %
          2 ^ 63) := by
  rw [messageId, toNat_and_mask, apply_ite UInt64.toNat, UInt64.toNat_add, toNat_rotateOne]
  congr 1
  by_cases h : meaning = ""
  · rw [if_pos h, if_pos (String.isEmpty_iff.2 h)]
  · rw [if_neg h, if_neg fun e => h (String.isEmpty_iff.1 e)]
    exact Nat.mod_mod_of_dvd _ (Nat.pow_dvd_pow 2 (by decide))

/-- A digest is a number computed in plain arithmetic. The hash of a byte string is that of its
blocks of twelve bytes and the bytes behind them, and a pass asks only for bytes that are there. A
fingerprint is two hashes side by side, and never 0 or 1. An id is the decimal numeral of the
fingerprints of text and meaning, modulo `2 ^ 63`. -/
theorem digest_by_blocks :
    (∀ (seed : UInt32) (bytes : ByteArray),
      hash32 seed bytes = blockHash seed bytes.data.toList ∧
        pass (.checked bytes) bytes.size seed = some (hash32 seed bytes)) ∧
    (∀ text : String,
      let high := blockHash 0 text.toUTF8.data.toList
      let low := blockHash 102072 text.toUTF8.data.toList
      let joined := high.toNat * 2 ^ 32 + low.toNat
      (fingerprint text).toNat =
          (if joined = 0 ∨ joined = 1 then
            (high ^^^ 0x130f9bef).toNat * 2 ^ 32 + (low ^^^ 0x94a0a928).toNat
          else joined) ∧
        fingerprint text ≠ 0 ∧ fingerprint text ≠ 1) ∧
    ∀ text meaning : String,
      messageId text meaning =
        toString ((if meaning = "" then (fingerprint text).toNat
          else ((fingerprint text).toBitVec.rotateLeft 1).toNat + (fingerprint meaning).toNat) %
            2 ^ 63) := by
  refine ⟨fun seed bytes => ⟨hash32_eq seed bytes, ?_⟩,
    fun text => ⟨toNat_fingerprint text, fingerprint_ne text⟩, messageId_eq⟩
  rw [hash32_eq]
  exact pass_of_reads (Access.reads_checked bytes) seed

example : messageId "It works!" "site header" = "3987846127133982403" := by decide +kernel

end MessageCatalog.Digest
