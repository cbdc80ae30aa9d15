import Mathlib.Data.List.Forall2
import ObjectMapping.Text.Utf8

/-! Every text is read back from its bytes. The bytes of one character are a first byte with
as many bytes after it as its ranges ask for, and they stand for the character again. Texts of
ASCII are in the order of their bytes. -/
namespace ObjectMapping.Utf8

private theorem toList_loop (data : ByteArray) (index : Nat) (collected : List UInt8) :
    ByteArray.toList.loop data index collected =
      collected.reverse ++ data.data.toList.drop index := by
  induction index, collected using ByteArray.toList.loop.induct data with
  | case1 index collected inside ih =>
    have bound : index < data.data.toList.length := by simpa using inside
    have here : data.get! index = data.data.toList[index] := by
      simp only [ByteArray.get!, Array.getElem_toList]
      exact getElem!_pos data.data index (by simpa using inside)
    rw [ByteArray.toList.loop, if_pos inside, ih, List.drop_eq_getElem_cons bound, here]
    simp
  | case2 index collected outside =>
    have bound : data.data.toList.length ≤ index := by simpa using outside
    rw [ByteArray.toList.loop, if_neg outside, List.drop_eq_nil_of_le bound, List.append_nil]

/-- The bytes of a text are those of its characters in order. -/
theorem bytes_eq (text : String) : bytes text = text.toList.flatMap String.utf8EncodeChar := by
  rw [bytes, String.toUTF8_eq_toByteArray, ← String.utf8Encode_toList, ByteArray.toList,
    toList_loop, List.utf8Encode, List.toList_data_toByteArray]
  rfl

/-- The bytes lie in the ranges, one by one. -/
private def Within (ranges : List (Nat × Nat)) (tail : List UInt8) : Prop :=
  List.Forall₂ (fun range byte => range.1 ≤ byte.toNat ∧ byte.toNat ≤ range.2) ranges tail

private theorem Within.matched {ranges : List (Nat × Nat)} {tail : List UInt8}
    (within : Within ranges tail) (rest : List UInt8) :
    matched ranges (tail ++ rest) = (ranges.length, false) := by
  induction within with
  | nil => rfl
  | cons fits _ ih =>
    simp only [List.cons_append, Utf8.matched, if_pos fits, ih, List.length_cons]

private theorem readFrom_skip (skipped rest : List UInt8) (read : readFrom 0 rest = .ok text) :
    readFrom skipped.length (skipped ++ rest) = .ok text := by
  induction skipped with
  | nil => exact read
  | cons byte skipped ih =>
    rw [List.length_cons, List.cons_append, readFrom, ih]
    rfl

/-- The bytes are a first byte and what its ranges ask for, and they stand for the number. -/
private def Encodes (encoded : List UInt8) (v : Nat) : Prop :=
  ∃ first tail ranges, encoded = first :: tail ∧ continuations first.toNat = some ranges ∧
    Within ranges tail ∧ codePoint first.toNat tail = v

private theorem Encodes.readFrom {encoded rest : List UInt8} {v : Nat} (encodes : Encodes encoded v)
    (read : readFrom 0 rest = .ok text) :
    readFrom 0 (encoded ++ rest) = .ok (Char.ofNat v :: text) := by
  obtain ⟨first, tail, ranges, rfl, starts, within, rfl⟩ := encodes
  have length : ranges.length = tail.length := within.length_eq
  have skip := readFrom_skip tail rest read
  simp only [List.cons_append, Utf8.readFrom, starts, within.matched rest, length, if_true, skip,
    List.take_left]
  rfl

/-- The second of three bytes lies in the range that keeps overlong forms and surrogates out. -/
private theorem continuations_three {v : Nat} (low : 0x7FF < v) (high : v ≤ 0xFFFF)
    (valid : v < 0xD800 ∨ 0xDFFF < v) : ∃ range : Nat × Nat,
      continuations (v / 4096 % 16 + 224) = some [range, (0x80, 0xBF)] ∧
        range.1 ≤ v / 64 % 64 + 128 ∧ v / 64 % 64 + 128 ≤ range.2 := by
  unfold continuations
  simp only [beq_iff_eq]
  split_ifs <;> first | omega | exact ⟨_, rfl, by omega⟩

/-- The second of four bytes lies in the range that keeps overlong forms and numbers beyond
the last code point out. -/
private theorem continuations_four {v : Nat} (low : 0xFFFF < v) (high : v < 0x110000) :
    ∃ range : Nat × Nat,
      continuations (v / 262144 % 8 + 240) = some [range, (0x80, 0xBF), (0x80, 0xBF)] ∧
        range.1 ≤ v / 4096 % 64 + 128 ∧ v / 4096 % 64 + 128 ≤ range.2 := by
  unfold continuations
  simp only [beq_iff_eq]
  split_ifs <;> first | omega | exact ⟨_, rfl, by omega⟩

private theorem toNat_byte (small : n < 256) : (UInt8.ofNat n).toNat = n := by
  rw [UInt8.toNat_ofNat', Nat.mod_eq_of_lt small]

private theorem continuation_byte (n : Nat) :
    0x80 ≤ (UInt8.ofNat (n % 64 + 128)).toNat ∧ (UInt8.ofNat (n % 64 + 128)).toNat ≤ 0xBF := by
  rw [toNat_byte (by omega)]
  omega

variable {v : Nat}

private theorem encodes_one (high : v ≤ 0x7F) : Encodes [.ofNat v] v := by
  have first : (UInt8.ofNat v).toNat = v := toNat_byte (by omega)
  refine ⟨_, [], [], rfl, ?_, .nil, ?_⟩
  · rw [first, continuations, if_pos (by omega)]
  · simp only [first, codePoint, List.foldl_nil]
    rw [if_pos (by omega)]

private theorem encodes_two (low : 0x7F < v) (high : v ≤ 0x7FF) :
    Encodes [.ofNat (v / 64 % 32 + 192), .ofNat (v % 64 + 128)] v := by
  have first : (UInt8.ofNat (v / 64 % 32 + 192)).toNat = v / 64 % 32 + 192 := toNat_byte (by omega)
  have last : (UInt8.ofNat (v % 64 + 128)).toNat = v % 64 + 128 := toNat_byte (by omega)
  refine ⟨_, _, [(0x80, 0xBF)], rfl, ?_, .cons (continuation_byte v) .nil, ?_⟩
  · rw [first, continuations, if_neg (by omega), if_neg (by omega), if_pos (by omega)]
  · simp only [first, last, codePoint, List.foldl_cons, List.foldl_nil]
    rw [if_neg (by omega), if_pos (by omega)]
    omega

private theorem encodes_three (low : 0x7FF < v) (high : v ≤ 0xFFFF)
    (valid : v < 0xD800 ∨ 0xDFFF < v) :
    Encodes [.ofNat (v / 4096 % 16 + 224), .ofNat (v / 64 % 64 + 128), .ofNat (v % 64 + 128)]
      v := by
  have first : (UInt8.ofNat (v / 4096 % 16 + 224)).toNat = v / 4096 % 16 + 224 :=
    toNat_byte (by omega)
  have second : (UInt8.ofNat (v / 64 % 64 + 128)).toNat = v / 64 % 64 + 128 := toNat_byte (by omega)
  have last : (UInt8.ofNat (v % 64 + 128)).toNat = v % 64 + 128 := toNat_byte (by omega)
  obtain ⟨range, starts, inside⟩ := continuations_three low high valid
  refine ⟨_, _, _, rfl, first.symm ▸ starts,
    .cons (second.symm ▸ inside) (.cons (continuation_byte v) .nil), ?_⟩
  simp only [first, second, last, codePoint, List.foldl_cons, List.foldl_nil]
  rw [if_neg (by omega), if_neg (by omega), if_pos (by omega)]
  omega

private theorem encodes_four (low : 0xFFFF < v) (high : v < 0x110000) :
    Encodes [.ofNat (v / 262144 % 8 + 240), .ofNat (v / 4096 % 64 + 128),
      .ofNat (v / 64 % 64 + 128), .ofNat (v % 64 + 128)] v := by
  have first : (UInt8.ofNat (v / 262144 % 8 + 240)).toNat = v / 262144 % 8 + 240 :=
    toNat_byte (by omega)
  have second : (UInt8.ofNat (v / 4096 % 64 + 128)).toNat = v / 4096 % 64 + 128 :=
    toNat_byte (by omega)
  have third : (UInt8.ofNat (v / 64 % 64 + 128)).toNat = v / 64 % 64 + 128 := toNat_byte (by omega)
  have last : (UInt8.ofNat (v % 64 + 128)).toNat = v % 64 + 128 := toNat_byte (by omega)
  obtain ⟨range, starts, inside⟩ := continuations_four low high
  refine ⟨_, _, _, rfl, first.symm ▸ starts, .cons (second.symm ▸ inside)
    (.cons (continuation_byte (v / 64)) (.cons (continuation_byte v) .nil)), ?_⟩
  simp only [first, second, third, last, codePoint, List.foldl_cons, List.foldl_nil]
  rw [if_neg (by omega), if_neg (by omega), if_neg (by omega)]
  omega

/-- Characters are no surrogates, and so their bytes are in order. -/
private theorem encodes_char (c : Char) : Encodes (String.utf8EncodeChar c) c.toNat := by
  have valid : c.toNat < 0xD800 ∨ 0xDFFF < c.toNat ∧ c.toNat < 0x110000 := c.valid
  simp only [Char.toNat, String.utf8EncodeChar] at valid ⊢
  generalize c.val.toNat = v at valid ⊢
  split_ifs with one two three
  · exact encodes_one one
  · exact encodes_two (by omega) two
  · exact encodes_three (by omega) three (by omega)
  · exact encodes_four (by omega) (by omega)

theorem readFrom_char (c : Char) (rest : List UInt8) (read : readFrom 0 rest = .ok text) :
    readFrom 0 (String.utf8EncodeChar c ++ rest) = .ok (c :: text) := by
  rw [(encodes_char c).readFrom read, Char.ofNat_toNat]

/-- A text is read back from its bytes. -/
theorem read_bytes (text : String) : read (bytes text) = .ok text := by
  have each (chars : List Char) : readFrom 0 (chars.flatMap String.utf8EncodeChar) = .ok chars := by
    induction chars with
    | nil => rfl
    | cons c chars ih => exact readFrom_char c _ ih
  rw [read, bytes_eq, each, Except.map, String.ofList_toList]

/-- A character of ASCII is one byte. -/
theorem encode_ascii {c : Char} (ascii : c.toNat < 0x80) :
    String.utf8EncodeChar c = [UInt8.ofNat c.toNat] := by
  simp only [Char.toNat] at ascii ⊢
  rw [String.utf8EncodeChar]
  exact if_pos (by omega)

/-- Texts of ASCII are in the order of their bytes. -/
theorem bytes_lt_iff {s t : String} (ascii : ∀ c ∈ s.toList, c.toNat < 0x80)
    (ascii' : ∀ c ∈ t.toList, c.toNat < 0x80) : bytes s < bytes t ↔ s.toList < t.toList := by
  rw [bytes_eq, bytes_eq]
  generalize s.toList = cs at ascii ⊢
  generalize t.toList = ds at ascii' ⊢
  induction cs generalizing ds with
  | nil =>
    cases ds with
    | nil => simp
    | cons d ds => simp [encode_ascii (ascii' d List.mem_cons_self)]
  | cons c cs ih =>
    cases ds with
    | nil => simp
    | cons d ds =>
      obtain ⟨here, later⟩ := List.forall_mem_cons.mp ascii
      obtain ⟨here', later'⟩ := List.forall_mem_cons.mp ascii'
      have before : UInt8.ofNat c.toNat < UInt8.ofNat d.toNat ↔ c < d :=
        UInt8.ofNat_lt_iff_lt (Nat.lt_trans here (by decide)) (Nat.lt_trans here' (by decide))
      have same : UInt8.ofNat c.toNat = UInt8.ofNat d.toNat ↔ c = d := by
        rw [← UInt8.toNat_inj, toNat_byte (Nat.lt_trans here (by decide)),
          toNat_byte (Nat.lt_trans here' (by decide)), Char.toNat_inj]
      rw [List.flatMap_cons, List.flatMap_cons, encode_ascii here, encode_ascii here',
        List.singleton_append, List.singleton_append, List.cons_lt_cons_iff, List.cons_lt_cons_iff,
        before, same, ih later ds later']

end ObjectMapping.Utf8
