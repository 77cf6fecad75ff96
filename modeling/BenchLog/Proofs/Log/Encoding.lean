import BenchLog.Log.Lines

/-!
# Texts as bytes

Bytes are text exactly if they are the encoding of one (`decode?_eq_some_iff`), and a byte below 128
stands for a character by itself, never for a part of another one (`toNat_of_mem_utf8EncodeChar`). So
such a character behind other bytes decides nothing about them (`isSome_decode?_append`).
-/

namespace BenchLog

namespace Log

theorem decode?_eq_some_iff {bytes : List UInt8} {text : List Char} :
    decode? bytes = some text ↔ bytes = encode text := by
  constructor
  · intro decoded
    unfold decode? String.fromUTF8? at decoded
    split at decoded
    · obtain rfl := Option.some.inj decoded
      rw [← List.toByteArray_inj, toByteArray_encode, String.ofList_toList]
      rfl
    · cases decoded
  · rintro rfl
    exact decode?_encode text

theorem isSome_decode?_iff {bytes : List UInt8} :
    (decode? bytes).isSome ↔ ∃ text, bytes = encode text := by
  simp only [Option.isSome_iff_exists, decode?_eq_some_iff]

/-- A byte below 128 is a character of its own. -/
theorem toNat_of_mem_utf8EncodeChar {c : Char} {byte : UInt8} (small : byte.toNat < 128)
    (mem : byte ∈ String.utf8EncodeChar c) : c.toNat = byte.toNat := by
  have value {n : Nat} (same : byte = UInt8.ofNat n) : n % 256 = byte.toNat :=
    (congrArg UInt8.toNat same).symm
  unfold String.utf8EncodeChar at mem
  dsimp only at mem
  split at mem
  · obtain rfl := List.mem_singleton.1 mem
    have range := value rfl
    rw [Nat.mod_eq_of_lt (by omega)] at range
    exact range
  · -- the bytes of a longer encoding are all 128 or more
    repeat' split at mem
    all_goals
      simp only [List.mem_cons, List.not_mem_nil, or_false] at mem
    · rcases mem with mem | mem <;> have := value mem <;> omega
    · rcases mem with mem | mem | mem <;> have := value mem <;> omega
    · rcases mem with mem | mem | mem | mem <;> have := value mem <;> omega

theorem eq_newLine_of_lineFeed_mem {c : Char} (mem : lineFeed ∈ String.utf8EncodeChar c) :
    c = '\n' :=
  Char.toNat_inj.1 (toNat_of_mem_utf8EncodeChar (by decide) mem)

theorem lineFeed_notMem_encode {text : List Char} (plain : '\n' ∉ text) :
    lineFeed ∉ encode text := by
  intro mem
  obtain ⟨c, inText, feed⟩ := List.mem_flatMap.1 mem
  exact plain (eq_newLine_of_lineFeed_mem feed ▸ inText)

theorem encode_of_ascii {c : Char} (small : c.toNat < 128) : encode [c] = [UInt8.ofNat c.toNat] := by
  have one : c.val.toNat ≤ 127 := Nat.le_of_lt_succ small
  rw [encode, List.flatMap_singleton]
  unfold String.utf8EncodeChar
  exact if_pos one

/-- A character below 128 behind other bytes does not matter for whether they are text. -/
theorem isSome_decode?_append {bytes : List UInt8} {c : Char} (small : c.toNat < 128) :
    (decode? (bytes ++ encode [c])).isSome ↔ (decode? bytes).isSome := by
  rw [isSome_decode?_iff, isSome_decode?_iff]
  constructor
  · rintro ⟨text, same⟩
    rcases List.eq_nil_or_concat text with rfl | ⟨front, d, rfl⟩
    · simp [encode] at same
    · rw [List.concat_eq_append, encode_append] at same
      have last : UInt8.ofNat c.toNat ∈ encode [d] := by
        have some : encode [d] ≠ [] := by
          rw [encode, List.flatMap_singleton]
          exact String.utf8EncodeChar_ne_nil
        have ends := congrArg List.getLast? same
        rw [encode_of_ascii small, List.getLast?_concat, List.getLast?_append,
          List.getLast?_eq_some_getLast some, Option.some_or, Option.some.injEq] at ends
        exact ends ▸ List.getLast_mem some
      have value : (UInt8.ofNat c.toNat).toNat = c.toNat := Nat.mod_eq_of_lt (by omega)
      rw [encode, List.flatMap_singleton] at last
      have code := toNat_of_mem_utf8EncodeChar (value.symm ▸ small) last
      obtain rfl : d = c := Char.toNat_inj.1 (code.trans value)
      exact ⟨front, List.append_cancel_right same⟩
  · rintro ⟨text, rfl⟩
    exact ⟨text ++ [c], (encode_append text [c]).symm⟩

end Log

end BenchLog
