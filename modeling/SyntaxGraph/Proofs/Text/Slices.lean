import SyntaxGraph.Tree.Concrete

/-!
Texts between bytes of a source. A range of bytes is a text exactly if it starts and ends where
characters start, that is if the source falls into what stands before it, the text, and what stands
behind it.
-/

set_option autoImplicit false

namespace SyntaxGraph

/-- The source falls into three parts, of which the one in the middle is the text and lies between
the given bytes. -/
def StandsBetween (source : String) (startByte endByte : Nat) (text : String) : Prop :=
  ∃ before after, source = before ++ text ++ after ∧ before.utf8ByteSize = startByte ∧
    startByte + text.utf8ByteSize = endByte

theorem stands_between_whole (text : String) : StandsBetween text 0 text.utf8ByteSize text :=
  ⟨"", "", by simp, rfl, Nat.zero_add _⟩

/-- What is put in front of a source moves the texts in it, and what is put behind it does not. -/
theorem StandsBetween.surrounded {source text : String} {startByte endByte : Nat}
    (stands : StandsBetween source startByte endByte text) (front back : String) :
    StandsBetween (front ++ source ++ back) (front.utf8ByteSize + startByte)
      (front.utf8ByteSize + endByte) text := by
  obtain ⟨before, after, rfl, rfl, rfl⟩ := stands
  refine ⟨front ++ before, after ++ back, ?_, ?_, ?_⟩
  · simp only [String.append_assoc]
  · exact String.utf8ByteSize_append
  · omega

theorem StandsBetween.trans {source middle text : String} {startByte endByte innerStart innerEnd : Nat}
    (outer : StandsBetween source startByte endByte middle)
    (inner : StandsBetween middle innerStart innerEnd text) :
    StandsBetween source (startByte + innerStart) (startByte + innerEnd) text := by
  obtain ⟨before, after, rfl, rfl, _⟩ := outer
  exact inner.surrounded before after

theorem from_utf8_bytes (text : String) : String.fromUTF8? text.toByteArray = some text := by
  rw [String.fromUTF8?, dif_pos text.isValidUTF8]
  rfl

theorem bytes_of_from_utf8 {bytes : ByteArray} {text : String}
    (read : String.fromUTF8? bytes = some text) : text.toByteArray = bytes := by
  rw [String.fromUTF8?] at read
  split at read
  · cases read
    rfl
  · cases read

theorem exists_text_of_valid {bytes : ByteArray} (valid : bytes.IsValidUTF8) :
    ∃ text : String, text.toByteArray = bytes :=
  ⟨String.fromUTF8 bytes valid, rfl⟩

theorem slice_of_stands_between {source text : String} {startByte endByte : Nat}
    (stands : StandsBetween source startByte endByte text) :
    sliceBytes? source startByte endByte = some text := by
  obtain ⟨before, after, rfl, rfl, rfl⟩ := stands
  have inside : before.utf8ByteSize + text.utf8ByteSize ≤ (before ++ text ++ after).utf8ByteSize := by
    rw [String.utf8ByteSize_append, String.utf8ByteSize_append]
    exact Nat.le_add_right _ _
  have bytes : (before ++ text ++ after).toUTF8.extract before.utf8ByteSize
      (before.utf8ByteSize + text.utf8ByteSize) = text.toByteArray := by
    have shifted := ByteArray.extract_append_size_add (a := before.toByteArray)
      (b := (text ++ after).toByteArray) (i := 0) (j := text.utf8ByteSize)
    rw [String.toUTF8_eq_toByteArray, String.append_assoc, String.toByteArray_append]
    refine shifted.trans ?_
    rw [String.toByteArray_append]
    exact ByteArray.extract_append_eq_left rfl
  rw [sliceBytes?, if_pos inside, bytes, from_utf8_bytes]

theorem stands_between_of_slice {source text : String} {startByte endByte : Nat}
    (sliced : sliceBytes? source startByte endByte = some text) (nonempty : text ≠ "") :
    StandsBetween source startByte endByte text := by
  rw [sliceBytes?] at sliced
  split at sliced
  case isFalse => cases sliced
  rename_i inside
  rw [String.toUTF8_eq_toByteArray] at sliced
  have bytes := bytes_of_from_utf8 sliced
  have inOrder : startByte < endByte := by
    refine Nat.lt_of_not_le fun reversed => nonempty ?_
    rw [← String.toByteArray_inj, String.toByteArray_empty, bytes,
      ByteArray.extract_eq_empty_iff]
    exact Nat.le_trans (Nat.min_le_left _ _) reversed
  have valid : (source.toByteArray.extract startByte endByte).IsValidUTF8 :=
    bytes ▸ text.isValidUTF8
  have bounds := (String.Pos.Raw.isValidUTF8_extract_iff (s := source) ⟨startByte⟩ ⟨endByte⟩
    (Nat.le_of_lt inOrder) inside).1 valid
  obtain same | ⟨starts, ends⟩ := bounds
  · exact absurd (congrArg String.Pos.Raw.byteIdx same) (Nat.ne_of_lt inOrder)
  obtain ⟨before, before_bytes⟩ := exists_text_of_valid starts.isValidUTF8_extract_zero
  obtain ⟨after, after_bytes⟩ := exists_text_of_valid ends.isValidUTF8_extract_utf8ByteSize
  have whole : source = before ++ text ++ after := by
    rw [← String.toByteArray_inj, String.toByteArray_append, String.toByteArray_append,
      before_bytes, bytes, after_bytes,
      ← ByteArray.extract_eq_extract_append_extract _ (Nat.zero_le _) (Nat.le_of_lt inOrder),
      ← ByteArray.extract_eq_extract_append_extract _ (Nat.zero_le _) inside]
    exact ByteArray.extract_zero_size.symm
  have before_size : before.utf8ByteSize = startByte := by
    rw [← String.size_toByteArray, before_bytes, ByteArray.size_extract, Nat.sub_zero,
      String.size_toByteArray]
    exact Nat.min_eq_left (Nat.le_trans (Nat.le_of_lt inOrder) inside)
  have text_size : text.utf8ByteSize = endByte - startByte := by
    rw [← String.size_toByteArray, bytes, ByteArray.size_extract, String.size_toByteArray,
      Nat.min_eq_left inside]
  exact ⟨before, after, whole, before_size, by omega⟩

/-- The text of a token is what stands between its bytes, and empty where nothing does. -/
theorem ConcreteToken.text_stands_between (token : ConcreteToken) (source : String) :
    StandsBetween source token.startByte token.endByte (token.text source) ∨
      token.text source = "" ∧
        ¬∃ slice, StandsBetween source token.startByte token.endByte slice := by
  by_cases stands : ∃ slice, StandsBetween source token.startByte token.endByte slice
  · obtain ⟨slice, stands⟩ := stands
    have read : token.text source = slice := by
      rw [ConcreteToken.text, slice_of_stands_between stands]
      rfl
    exact .inl (read ▸ stands)
  · refine .inr ⟨?_, stands⟩
    rw [ConcreteToken.text]
    cases sliced : sliceBytes? source token.startByte token.endByte with
    | none => rfl
    | some slice =>
      by_cases empty : slice = ""
      · exact empty
      · exact absurd ⟨slice, stands_between_of_slice sliced empty⟩ stands

end SyntaxGraph
