/-
# Characters and their bytes

A text is read byte by byte. A character of ASCII is one byte, which is read as that
character; every other one is a row of bytes beyond ASCII (`encode`). So where a byte
of ASCII is read, a character begins and ends there (`exists_of_encode`).

Key definitions: `isAscii`, `bytes`, `encode`.
Key theorems: `octets_ofList`, `exists_of_encode`.
-/
import TypedConfig.Json.Reading

namespace TypedConfig
namespace Json

/-- Whether a character is one of ASCII. -/
def isAscii (c : Char) : Bool := c.toNat < 128

/-- The bytes of a character, each as the character of its number. -/
def bytes (c : Char) : List Char :=
  (String.utf8EncodeChar c).map fun byte => Char.ofNat byte.toNat

/-- The bytes of a row of characters. -/
def encode (cs : List Char) : List Char := cs.flatMap bytes

theorem encode_cons (c : Char) (cs : List Char) : encode (c :: cs) = bytes c ++ encode cs :=
  List.flatMap_cons

theorem isAscii_of_le {c : Char} (d : Char) (hd : isAscii d = true) (hc : c ≤ d) :
    isAscii c = true :=
  decide_eq_true (Nat.lt_of_le_of_lt hc (of_decide_eq_true hd))

theorem isAscii_digit {c : Char} (hc : Text.isDigit c = true) : isAscii c = true := by
  simp only [Text.isDigit, Bool.and_eq_true, decide_eq_true_eq] at hc
  exact isAscii_of_le '9' rfl hc.2

theorem isAscii_hexDigit {c : Char} (hc : Text.isHexDigit c = true) : isAscii c = true := by
  simp only [Text.isHexDigit, Bool.or_eq_true, Bool.and_eq_true, decide_eq_true_eq] at hc
  obtain (hc | hc) | hc := hc
  · exact isAscii_digit hc
  · exact isAscii_of_le 'f' rfl hc.2
  · exact isAscii_of_le 'F' rfl hc.2

/-! ### The bytes of a text -/

theorem toList_loop (array : ByteArray) (i : Nat) (read : List UInt8) :
    ByteArray.toList.loop array i read = read.reverse ++ array.data.toList.drop i := by
  rw [ByteArray.toList.loop]
  by_cases h : i < array.size
  · have hi : i < array.data.toList.length := h
    rw [if_pos h, toList_loop array (i + 1), List.reverse_cons, List.append_assoc,
      List.singleton_append, List.drop_eq_getElem_cons hi, Array.getElem_toList,
      ByteArray.get!, getElem!_pos array.data i h]
  · rw [if_neg h, List.drop_eq_nil_of_le (Nat.le_of_not_lt h), List.append_nil]
termination_by array.size - i

theorem octets_ofList (cs : List Char) : octets (.ofList cs) = encode cs := by
  rw [octets, String.toUTF8_eq_toByteArray, String.toByteArray_ofList, ByteArray.toList,
    toList_loop, List.utf8Encode, List.data_toByteArray, encode]
  simp only [List.reverse_nil, List.drop_zero, List.nil_append, List.map_flatMap]
  rfl

/-! ### Characters of ASCII and others -/

theorem bytes_of_ascii {c : Char} (hc : isAscii c = true) : bytes c = [c] := by
  have hlt : c.toNat < 128 := of_decide_eq_true hc
  have hle : c.val.toNat ≤ 127 := Nat.le_of_lt_succ hlt
  have hbyte : (UInt8.ofNat c.toNat).toNat = c.toNat := by
    rw [UInt8.toNat_ofNat']
    omega
  have hencode : String.utf8EncodeChar c = [UInt8.ofNat c.toNat] := by
    rw [String.utf8EncodeChar]
    exact if_pos hle
  rw [bytes, hencode, List.map_singleton, hbyte, Char.ofNat_toNat]

/-- A byte beyond ASCII, as it is read. -/
theorem isAscii_byte {n : Nat} (h : 128 ≤ n % 256) :
    isAscii (Char.ofNat (UInt8.ofNat n).toNat) = false := by
  rw [UInt8.toNat_ofNat']
  have hvalid : (n % 2 ^ 8).isValidChar := Or.inl (by omega)
  rw [isAscii, Char.ofNat, dif_pos hvalid]
  exact decide_eq_false (Nat.not_lt.mpr h)

/-- A character beyond ASCII is a row of bytes beyond ASCII. -/
theorem exists_bytes {c : Char} (hc : isAscii c = false) :
    ∃ b bs, bytes c = b :: bs ∧ ∀ d ∈ b :: bs, isAscii d = false := by
  have hle : ¬c.val.toNat ≤ 127 := by
    have hnot : ¬c.toNat < 128 := of_decide_eq_false hc
    exact fun h => hnot (Nat.lt_succ_of_le h)
  rw [bytes, String.utf8EncodeChar, if_neg hle]
  by_cases h₂ : c.val.toNat ≤ 2047
  · rw [if_pos h₂]
    refine ⟨_, _, rfl, List.forall_mem_cons.mpr ⟨isAscii_byte (by omega), ?_⟩⟩
    exact List.forall_mem_singleton.mpr (isAscii_byte (by omega))
  · rw [if_neg h₂]
    by_cases h₃ : c.val.toNat ≤ 65535
    · rw [if_pos h₃]
      refine ⟨_, _, rfl, List.forall_mem_cons.mpr ⟨isAscii_byte (by omega), ?_⟩⟩
      refine List.forall_mem_cons.mpr ⟨isAscii_byte (by omega), ?_⟩
      exact List.forall_mem_singleton.mpr (isAscii_byte (by omega))
    · rw [if_neg h₃]
      refine ⟨_, _, rfl, List.forall_mem_cons.mpr ⟨isAscii_byte (by omega), ?_⟩⟩
      refine List.forall_mem_cons.mpr ⟨isAscii_byte (by omega), ?_⟩
      refine List.forall_mem_cons.mpr ⟨isAscii_byte (by omega), ?_⟩
      exact List.forall_mem_singleton.mpr (isAscii_byte (by omega))

/-- Behind its first byte, a character has bytes beyond ASCII only. -/
theorem exists_first_byte (c : Char) :
    ∃ b bs, bytes c = b :: bs ∧ (∀ d ∈ bs, isAscii d = false) ∧ (b = c ∨ isAscii c = false) := by
  cases hc : isAscii c with
  | true => exact ⟨c, [], bytes_of_ascii hc, nofun, Or.inl rfl⟩
  | false =>
    obtain ⟨b, bs, hbytes, hhigh⟩ := exists_bytes hc
    exact ⟨b, bs, hbytes, fun d hd => hhigh d (List.mem_cons_of_mem _ hd), Or.inr rfl⟩

theorem encode_eq_nil {cs : List Char} : encode cs = [] ↔ cs = [] := by
  constructor
  · intro h
    cases cs with
    | nil => rfl
    | cons c cs =>
      obtain ⟨b, bs, hbytes, -⟩ := exists_first_byte c
      rw [encode_cons, hbytes] at h
      cases h
  · rintro rfl
    rfl

/-- Where a byte of ASCII is read, it is the next character. -/
theorem exists_of_encode {c : Char} {cs rest : List Char} (hc : isAscii c = true)
    (h : encode cs = c :: rest) : ∃ more, cs = c :: more ∧ rest = encode more := by
  cases cs with
  | nil => cases h
  | cons d more =>
    rw [encode_cons] at h
    cases hd : isAscii d with
    | true =>
      rw [bytes_of_ascii hd, List.singleton_append] at h
      obtain ⟨rfl, rfl⟩ := List.cons.inj h
      exact ⟨more, rfl, rfl⟩
    | false =>
      obtain ⟨b, bs, hbytes, hhigh⟩ := exists_bytes hd
      rw [hbytes, List.cons_append] at h
      obtain ⟨rfl, -⟩ := List.cons.inj h
      exact absurd (hhigh b List.mem_cons_self) (by rw [hc]; decide)

/-- Where bytes of ASCII are read, they are the next characters. -/
theorem exists_of_encode_append : ∀ {as rest cs : List Char}, (∀ c ∈ as, isAscii c = true) →
    encode cs = as ++ rest → ∃ more, cs = as ++ more ∧ rest = encode more
  | [], rest, cs, _, h => ⟨cs, rfl, h.symm⟩
  | a :: as, rest, cs, ha, h => by
    obtain ⟨more, rfl, hmore⟩ := exists_of_encode (ha a List.mem_cons_self) h
    obtain ⟨more, rfl, hrest⟩ :=
      exists_of_encode_append (fun c hc => ha c (List.mem_cons_of_mem _ hc)) hmore.symm
    exact ⟨more, rfl, hrest⟩

end Json
end TypedConfig
