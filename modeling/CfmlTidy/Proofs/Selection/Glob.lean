import Mathlib
import CfmlTidy.Proofs.Encoding.Ascii
import CfmlTidy.Selection.Glob

/-!
# Globs on the bytes of a text

A glob is matched against the bytes of a path. The bytes of a character are those of no other, and
the byte of a slash occurs in the bytes of a slash alone, so what the tokens match can be said of
characters.
-/

namespace CfmlTidy

open Encoding

namespace Encoding.Utf8

/-- The byte of a slash occurs in the bytes of a slash alone. -/
theorem eq_slash_of_mem {c : Char} (inside : Glob.slash ∈ String.utf8EncodeChar c) : c = '/' :=
  eq_of_mem_encodeChar (by decide) inside

end Encoding.Utf8

namespace Glob

variable {next : List UInt8 → Bool} {text : List Char}

/-- A start is stripped from bytes exactly when they start with it. -/
theorem strip?_eq_some_iff {start bytes rest : List UInt8} :
    strip? start bytes = some rest ↔ bytes = start ++ rest := by
  fun_induction strip? start bytes with
  | case1 bytes => simp
  | case2 => simp
  | case3 expected start bytes ih => simpa using ih
  | case4 expected start byte bytes differs => simp [Ne.symm differs]

/-- A character matches its bytes. -/
theorem literal_accepts_bytes_iff {stop : Bool} {c : Char} {bytes : List UInt8} :
    (Token.literal c).accepts stop next bytes = true ↔
      ∃ rest, bytes = String.utf8EncodeChar c ++ rest ∧ next rest = true := by
  simp only [← strip?_eq_some_iff]
  rw [Token.accepts]
  cases strip? (String.utf8EncodeChar c) bytes <;> simp

/-- A character matches itself. -/
theorem literal_accepts_iff {stop : Bool} {c : Char} :
    (Token.literal c).accepts stop next (Utf8.encode text) = true ↔
      ∃ back, text = c :: back ∧ next (Utf8.encode back) = true := by
  rw [literal_accepts_bytes_iff]
  simp only [Utf8.encode_eq_append_iff]
  constructor
  · rintro ⟨rest, ⟨back, whole, rfl⟩, accepted⟩
    exact ⟨back, whole, accepted⟩
  · rintro ⟨back, whole, accepted⟩
    exact ⟨_, ⟨back, whole, rfl⟩, accepted⟩

/-- The characters of a word match the word. -/
theorem literals_accepts_iff {stop : Bool} {tokens : List Token} (word : List Char) :
    acceptsAll stop next (word.map .literal ++ tokens) (Utf8.encode text) = true ↔
      ∃ back, text = word ++ back ∧ acceptsAll stop next tokens (Utf8.encode back) = true := by
  induction word generalizing text with
  | nil => simp
  | cons c word ih =>
    rw [List.map_cons, List.cons_append, acceptsAll, literal_accepts_iff]
    simp only [ih]
    constructor
    · rintro ⟨_, rfl, back, rfl, accepted⟩
      exact ⟨back, rfl, accepted⟩
    · rintro ⟨back, rfl, accepted⟩
      exact ⟨_, rfl, back, rfl, accepted⟩

/-- A run is a beginning of the bytes, all of which are allowed. -/
theorem someRun_iff {allowed : UInt8 → Bool} {bytes : List UInt8} :
    someRun allowed next bytes = true ↔
      ∃ front back, bytes = front ++ back ∧ (∀ byte ∈ front, allowed byte = true) ∧
        next back = true := by
  induction bytes with
  | nil => simp [someRun]
  | cons byte rest ih =>
    rw [someRun, Bool.or_eq_true, Bool.and_eq_true, ih]
    constructor
    · rintro (here | ⟨first, front, back, rfl, others, accepted⟩)
      · exact ⟨[], byte :: rest, rfl, by simp, here⟩
      · exact ⟨byte :: front, back, rfl, List.forall_mem_cons.mpr ⟨first, others⟩, accepted⟩
    · rintro ⟨front, back, whole, each, accepted⟩
      rcases List.cons_eq_append_iff.mp whole with ⟨rfl, rfl⟩ | ⟨shorter, rfl, rfl⟩
      · exact Or.inl accepted
      · obtain ⟨first, others⟩ := List.forall_mem_cons.mp each
        exact Or.inr ⟨first, shorter, back, rfl, others, accepted⟩

/-- A slash is among the bytes of a text exactly when it is among its characters. -/
theorem slash_mem_encode_iff : slash ∈ Utf8.encode text ↔ '/' ∈ text := by
  constructor
  · intro inside
    obtain ⟨c, listed, bytes⟩ := List.mem_flatMap.mp inside
    exact Utf8.eq_slash_of_mem bytes ▸ listed
  · intro listed
    exact List.mem_flatMap.mpr ⟨'/', listed, List.mem_singleton_self slash⟩

/-- A run that stops at slashes, up to an ASCII character, has no slash. It ends between two
characters, since the byte of the character stands nowhere else. -/
theorem run_literal_accepts_iff {tokens : List Token} {a : Char} (ascii : a.toNat < 0x80) :
    acceptsAll true next (.run :: .literal a :: tokens) (Utf8.encode text) = true ↔
      ∃ front back, text = front ++ a :: back ∧ '/' ∉ front ∧
        acceptsAll true next tokens (Utf8.encode back) = true := by
  rw [acceptsAll, Token.accepts, someRun_iff]
  simp only [acceptsAll, literal_accepts_bytes_iff, Utf8.encodeChar_of_ascii ascii]
  constructor
  · rintro ⟨front, _, whole, clean, rest, rfl, accepted⟩
    obtain ⟨before, after, rfl, rfl, rfl⟩ := (Utf8.encode_eq_append_cons_iff ascii).mp whole
    refine ⟨before, after, rfl, fun slashed => ?_, accepted⟩
    have crossed := clean slash (slash_mem_encode_iff.mpr slashed)
    contradiction
  · rintro ⟨front, back, rfl, clean, accepted⟩
    refine ⟨Utf8.encode front, _, (Utf8.encode_eq_append_cons_iff ascii).mpr
      ⟨front, back, rfl, rfl, rfl⟩, fun byte inside => ?_, _, rfl, accepted⟩
    have other : byte ≠ slash := by
      rintro rfl
      exact clean (slash_mem_encode_iff.mp inside)
    simpa using other

/-- Bytes without a slash do not end directories. -/
theorem someDirs_append {bytes : List UInt8} (clean : slash ∉ bytes) (rest : List UInt8) :
    someDirs next (bytes ++ rest) = someDirs next rest := by
  induction bytes with
  | nil => rfl
  | cons byte bytes ih =>
    obtain ⟨first, later⟩ := not_or.mp (List.mem_cons.not.mp clean)
    have differs : (byte == slash) = false := beq_eq_false_iff_ne.mpr (Ne.symm first)
    rw [List.cons_append, someDirs, differs, ih later]
    rfl

/-- Directories are what stands before a slash. -/
theorem someDirs_encode_iff :
    someDirs next (Utf8.encode text) = true ↔
      ∃ front back, text = front ++ '/' :: back ∧ next (Utf8.encode back) = true := by
  induction text with
  | nil => simp [Utf8.encode, someDirs]
  | cons c rest ih =>
    rw [Utf8.encode_cons]
    have later : (∃ front back, c :: rest = front ++ '/' :: back ∧
        next (Utf8.encode back) = true) ↔
        (c = '/' ∧ next (Utf8.encode rest) = true) ∨
          someDirs next (Utf8.encode rest) = true := by
      rw [ih]
      constructor
      · rintro ⟨front, back, whole, accepted⟩
        rcases List.cons_eq_append_iff.mp whole with ⟨-, same⟩ | ⟨shorter, -, same⟩
        · obtain ⟨rfl, rfl⟩ := List.cons.inj same
          exact Or.inl ⟨rfl, accepted⟩
        · exact Or.inr ⟨shorter, back, same, accepted⟩
      · rintro (⟨rfl, accepted⟩ | ⟨front, back, rfl, accepted⟩)
        · exact ⟨[], rest, rfl, accepted⟩
        · exact ⟨c :: front, back, rfl, accepted⟩
    rw [later]
    by_cases slashed : c = '/'
    · subst slashed
      have bytes : String.utf8EncodeChar '/' = [slash] := rfl
      simp [bytes, someDirs]
    · have clean : slash ∉ String.utf8EncodeChar c := fun inside =>
        slashed (Utf8.eq_slash_of_mem inside)
      rw [someDirs_append clean]
      simp [slashed]

/-- Anything matches a run that may cross slashes. -/
theorem someRun_isEmpty (bytes : List UInt8) :
    someRun (fun _ => true) List.isEmpty bytes = true := by
  induction bytes with
  | nil => rfl
  | cons byte rest ih => rw [someRun, ih]; simp

/-- Two stars at the end match a slash and anything. -/
theorem trailingDirs_accepts_iff {stop : Bool} :
    Token.trailingDirs.accepts stop List.isEmpty (Utf8.encode text) = true ↔
      ∃ back, text = '/' :: back := by
  have slashed : ∀ rest, Utf8.encode text = slash :: rest ↔
      ∃ back, text = '/' :: back ∧ rest = Utf8.encode back :=
    fun rest => @Utf8.encode_eq_append_iff text '/' rest
  cases bytes : Utf8.encode text with
  | nil =>
    obtain rfl := Utf8.encode_eq_nil_iff.mp bytes
    simp [Token.accepts]
  | cons byte rest =>
    rw [Token.accepts, someRun_isEmpty, Bool.and_true, beq_iff_eq]
    constructor
    · rintro rfl
      obtain ⟨back, whole, -⟩ := (slashed rest).mp bytes
      exact ⟨back, whole⟩
    · rintro ⟨back, rfl⟩
      have first := (slashed (Utf8.encode back)).mpr ⟨back, rfl, rfl⟩
      rw [bytes] at first
      exact (List.cons.inj first).1

/-- Two stars at the start match nothing or directories. -/
theorem leadingDirs_accepts_iff {stop : Bool} {tokens : List Token} :
    acceptsAll stop List.isEmpty (.leadingDirs :: tokens) (Utf8.encode text) = true ↔
      acceptsAll stop List.isEmpty tokens (Utf8.encode text) = true ∨
        ∃ front back, text = front ++ '/' :: back ∧
          acceptsAll stop List.isEmpty tokens (Utf8.encode back) = true := by
  rw [acceptsAll, Token.accepts, Bool.or_eq_true, someDirs_encode_iff]

/-- A word as a glob matches itself. -/
theorem word_accepts_iff {stop : Bool} (word : List Char) :
    acceptsAll stop List.isEmpty (word.map .literal) (Utf8.encode text) = true ↔ text = word := by
  rw [← List.append_nil (word.map Token.literal), literals_accepts_iff]
  simp only [acceptsAll, List.isEmpty_iff, Utf8.encode_eq_nil_iff]
  constructor
  · rintro ⟨_, rfl, rfl⟩
    exact List.append_nil word
  · rintro rfl
    exact ⟨[], (List.append_nil text).symm, rfl⟩

/-- A word, a slash and two stars match what is below the word. -/
theorem below_accepts_iff {stop : Bool} (word : List Char) :
    acceptsAll stop List.isEmpty (word.map .literal ++ [.trailingDirs]) (Utf8.encode text) = true ↔
      ∃ back, text = word ++ '/' :: back := by
  simp only [literals_accepts_iff, acceptsAll, trailingDirs_accepts_iff]
  constructor
  · rintro ⟨_, rfl, back, rfl⟩
    exact ⟨back, rfl⟩
  · rintro ⟨back, rfl⟩
    exact ⟨_, rfl, back, rfl⟩

/-- Two dots as a glob match two dots. -/
theorem dots_accepts_iff {stop : Bool} :
    acceptsAll stop List.isEmpty [.literal '.', .literal '.'] (Utf8.encode text) = true ↔
      text = ['.', '.'] := word_accepts_iff ['.', '.']

/-- Two dots, a slash and two stars match what is below two dots. -/
theorem belowDots_accepts_iff {stop : Bool} :
    acceptsAll stop List.isEmpty [.literal '.', .literal '.', .trailingDirs] (Utf8.encode text) =
      true ↔ ∃ back, text = '.' :: '.' :: '/' :: back := below_accepts_iff ['.', '.']

end Glob

end CfmlTidy
