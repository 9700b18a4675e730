import Mathlib
import CfmlTidy.Proofs.Selection.Glob
import CfmlTidy.Selection.Filter
import CfmlTidy.Settings.Defaults

/-!
# What the usual patterns select

Three forms of patterns can be told without globs. Two stars and a file name extension select the
paths that end with it, a name between pairs of stars selects what is below a directory of that name,
and a pattern without wildcards selects a path and what is below it. A pattern is also matched as
plain text, by equality and as a directory; for the first two forms this adds nothing, since the text
of the pattern is a path that its glob matches.
-/

namespace CfmlTidy

namespace Glob

variable {word rest : List Char} {reading : Reading}

/-- A character that stands for itself outside classes and groups. -/
abbrev IsPlain (c : Char) : Prop := c ∉ ['*', '?', '[', '{', '}', '\\']

/-- Outside of groups, a plain character is read as itself. -/
theorem readFrom_plain {c : Char} (plain : IsPlain c) (outside : reading.groups = [])
    (previous : Option Char) (rest : List Char) :
    readFrom (.plain previous) reading (c :: rest) =
      readFrom (.plain (some c)) (reading.push (.literal c)) rest := by
  simp only [IsPlain, List.mem_cons, List.not_mem_nil, or_false, not_or] at plain
  obtain ⟨star, mark, bracket, opening, closing, escape⟩ := plain
  rw [readFrom]
  · simp only [star, mark, bracket, opening, closing, if_false]
    split_ifs with comma
    · rw [Reading.comma, outside, comma]
    · rfl
  all_goals grind

/-- Characters that stand for themselves are read as literals. -/
theorem readFrom_append (plain : ∀ c ∈ word, IsPlain c) (outside : reading.groups = [])
    (previous : Option Char) (rest : List Char) :
    ∃ last, readFrom (.plain previous) reading (word ++ rest) =
      readFrom (.plain last) ⟨(word.map .literal).reverse ++ reading.current, []⟩ rest := by
  induction word generalizing reading previous with
  | nil =>
    refine ⟨previous, ?_⟩
    rw [← outside]
    rfl
  | cons c word ih =>
    obtain ⟨first, others⟩ := List.forall_mem_cons.mp plain
    obtain ⟨last, read⟩ := @ih (reading.push (.literal c)) others outside (some c)
    refine ⟨last, ?_⟩
    rw [List.cons_append, readFrom_plain first outside, read]
    simp [Reading.push]

/-- Two stars and a slash at the start are read as directories. -/
theorem readFrom_leadingDirs (rest : List Char) :
    readFrom (.plain none) .empty ('*' :: '*' :: '/' :: rest) =
      readFrom (.plain (some '/')) ⟨[.leadingDirs], []⟩ rest := by
  rw [readFrom]
  rfl

/-- Two stars, a slash, a star, a point and a word. -/
theorem read_extension (plain : ∀ c ∈ word, IsPlain c) :
    readFrom (.plain none) .empty ('*' :: '*' :: '/' :: '*' :: '.' :: word) =
      .ok (.leadingDirs :: .run :: .literal '.' :: word.map .literal) := by
  have star : readFrom (.plain (some '/')) ⟨[.leadingDirs], []⟩ ('*' :: '.' :: word) =
      readFrom (.plain (some '*')) ⟨[.run, .leadingDirs], []⟩ ('.' :: word) := by
    rw [readFrom] <;> simp [Reading.push]
  have point : ∀ c ∈ '.' :: word, IsPlain c :=
    List.forall_mem_cons.mpr ⟨by decide, plain⟩
  obtain ⟨last, read⟩ :=
    @readFrom_append ('.' :: word) ⟨[.run, .leadingDirs], []⟩ point rfl (some '*') []
  rw [readFrom_leadingDirs, star, ← List.append_nil ('.' :: word), read, readFrom, Reading.finish]
  simp

/-- Two stars, a slash, a word, a slash and two stars. -/
theorem read_directory (plain : ∀ c ∈ word, IsPlain c) :
    readFrom (.plain none) .empty ('*' :: '*' :: '/' :: (word ++ ['/', '*', '*'])) =
      .ok (.leadingDirs :: (word.map .literal ++ [.trailingDirs])) := by
  obtain ⟨last, read⟩ :=
    @readFrom_append word ⟨[.leadingDirs], []⟩ plain rfl (some '/') ['/', '*', '*']
  rw [readFrom_leadingDirs, read, readFrom_plain (by decide) rfl, readFrom]
  · simp [Reading.push, Reading.mayBeDirs, Reading.replaceLast, readFrom, Reading.finish]
  · simp

end Glob

namespace Selection

/-! ### Patterns as globs -/

/-- A glob that is no directory accepts its own text and what its tokens match. -/
theorem accepts_glob_iff {raw path : String} {tokens : List Glob.Token}
    (plain : directoryOf? raw.toList = none) (proper : tokens ≠ [.leadingDirs]) :
    (PathPattern.mk raw (some tokens)).accepts path = true ↔
      path = raw ∨
        Glob.acceptsAll true List.isEmpty tokens (Encoding.Utf8.encode path.toList) = true := by
  have whole : Glob.accepts true tokens path =
      Glob.acceptsAll true List.isEmpty tokens (Encoding.Utf8.encode path.toList) := by
    unfold Glob.accepts
    split
    · contradiction
    · rfl
  simp only [PathPattern.accepts, plain, Option.any_none, Bool.or_false, Bool.or_eq_true,
    beq_iff_eq, whole]

/-- A text without characters that mean something in a glob, and without slashes. -/
abbrev IsLiteral (text : String) : Prop :=
  ∀ c ∈ text.toList, c ∉ ['/', '*', '?', '[', ']', '{', '}', '\\']

/-- The characters of a literal text are plain. -/
theorem IsLiteral.plain {text : String} (literal : IsLiteral text) :
    ∀ c ∈ text.toList, Glob.IsPlain c := by
  intro c inside
  have other := literal c inside
  simp only [List.mem_cons, List.not_mem_nil, or_false, not_or] at other
  simp [Glob.IsPlain, other]

/-- The pattern of the files with an extension. -/
def extensionPattern (extension : String) : PathPattern where
  raw := "**/*." ++ extension
  glob := some (.leadingDirs :: .run :: .literal '.' :: extension.toList.map .literal)

/-- The pattern of what is below the directories of a name. -/
def directoryPattern (name : String) : PathPattern where
  raw := "**/" ++ name ++ "/**"
  glob := some (.leadingDirs :: (name.toList.map .literal ++ [.trailingDirs]))

/-- A pattern for an extension is read as the pattern of that extension. -/
theorem ofText_extension {extension : String} (literal : IsLiteral extension) :
    PathPattern.ofText ("**/*." ++ extension) = .ok (extensionPattern extension) := by
  have text : ("**/*." ++ extension).toList =
      '*' :: '*' :: '/' :: '*' :: '.' :: extension.toList := by simp
  have wild : hasWildcard ("**/*." ++ extension) = true := by simp [hasWildcard, text]
  rw [PathPattern.ofText, if_pos wild, Glob.read, text, Glob.read_extension literal.plain]
  rfl

/-- A pattern for a directory is read as the pattern of that directory. -/
theorem ofText_directory {name : String} (literal : IsLiteral name) :
    PathPattern.ofText ("**/" ++ name ++ "/**") = .ok (directoryPattern name) := by
  have text : ("**/" ++ name ++ "/**").toList =
      '*' :: '*' :: '/' :: (name.toList ++ ['/', '*', '*']) := by simp
  have wild : hasWildcard ("**/" ++ name ++ "/**") = true := by simp [hasWildcard, text]
  rw [PathPattern.ofText, if_pos wild, Glob.read, text, Glob.read_directory literal.plain]
  rfl

/-! ### What they accept -/

/-- A text that does not end in a slash names no directory. -/
theorem directoryOf?_eq_none {text : List Char} (apart : text.getLast? ≠ some '/') :
    directoryOf? text = none := if_neg apart

/-- A text without a slash, or its last slash. -/
theorem exists_last_slash (text : List Char) :
    '/' ∉ text ∨ ∃ front back, text = front ++ '/' :: back ∧ '/' ∉ back := by
  induction text with
  | nil => exact Or.inl List.not_mem_nil
  | cons c rest ih =>
    rcases ih with clean | ⟨front, back, rfl, clean⟩
    · by_cases slashed : c = '/'
      · exact Or.inr ⟨[], rest, by rw [slashed]; rfl, clean⟩
      · exact Or.inl fun inside => (List.mem_cons.mp inside).elim (slashed ·.symm) clean
    · exact Or.inr ⟨c :: front, back, rfl, clean⟩

/-- The pattern of an extension accepts the paths that end with it. -/
theorem extensionPattern_accepts_iff {extension path : String} (literal : IsLiteral extension) :
    (extensionPattern extension).accepts path = true ↔
      ("." ++ extension).toList <:+ path.toList := by
  have dotted : ("." ++ extension).toList = '.' :: extension.toList := by simp
  have raw : ("**/*." ++ extension).toList = ['*', '*', '/', '*'] ++ '.' :: extension.toList := by
    simp
  have plain : directoryOf? ("**/*." ++ extension).toList = none := by
    apply directoryOf?_eq_none
    rw [raw, List.getLast?_append_of_ne_nil _ (List.cons_ne_nil _ _)]
    intro ends
    rcases List.mem_cons.mp (List.mem_of_getLast? ends) with point | inside
    · contradiction
    · simpa using literal '/' inside
  rw [extensionPattern, accepts_glob_iff plain (by simp), Glob.leadingDirs_accepts_iff, dotted]
  simp only [Glob.run_literal_accepts_iff (show '.'.toNat < 0x80 by decide), Glob.word_accepts_iff]
  constructor
  · rintro (rfl | ⟨front, _, whole, -, rfl⟩ | ⟨front, _, whole, later, _, rfl, -, rfl⟩)
    · exact ⟨_, raw.symm⟩
    · exact ⟨front, whole.symm⟩
    · exact ⟨front ++ '/' :: later, by rw [whole]; simp⟩
  · rintro ⟨before, whole⟩
    rcases exists_last_slash before with clean | ⟨front, back, rfl, clean⟩
    · exact Or.inr (Or.inl ⟨before, _, whole.symm, clean, rfl⟩)
    · refine Or.inr (Or.inr ⟨front, back ++ '.' :: extension.toList, ?_, back, _, rfl, clean, rfl⟩)
      rw [← whole]
      simp

/-- A path has a segment of a name, at its start or after a slash, and a slash behind it. -/
def HasDirectory (name path : String) : Prop :=
  ∃ front back, path.toList = front ++ name.toList ++ '/' :: back ∧
    (front = [] ∨ ∃ before, front = before ++ ['/'])

/-- The pattern of a directory accepts the paths that have one of its name. -/
theorem directoryPattern_accepts_iff (name path : String) :
    (directoryPattern name).accepts path = true ↔ HasDirectory name path := by
  have raw : ("**/" ++ name ++ "/**").toList =
      (['*', '*'] ++ ['/']) ++ name.toList ++ '/' :: ['*', '*'] := by simp
  have plain : directoryOf? ("**/" ++ name ++ "/**").toList = none := by
    apply directoryOf?_eq_none
    rw [raw, List.getLast?_append_of_ne_nil _ (List.cons_ne_nil _ _)]
    decide
  rw [directoryPattern, accepts_glob_iff plain (by simp), Glob.leadingDirs_accepts_iff]
  simp only [Glob.below_accepts_iff]
  constructor
  · rintro (rfl | ⟨back, whole⟩ | ⟨front, _, whole, back, rfl⟩)
    · exact ⟨_, _, raw, Or.inr ⟨_, rfl⟩⟩
    · exact ⟨[], back, by rw [whole]; rfl, Or.inl rfl⟩
    · exact ⟨front ++ ['/'], back, by rw [whole]; simp, Or.inr ⟨front, rfl⟩⟩
  · rintro ⟨front, back, whole, rfl | ⟨before, rfl⟩⟩
    · exact Or.inr (Or.inl ⟨back, by rw [whole]; rfl⟩)
    · exact Or.inr (Or.inr ⟨before, name.toList ++ '/' :: back, by rw [whole]; simp, back, rfl⟩)

/-- A path is under a directory when it is the directory or goes on behind it with a slash. -/
theorem isUnder_iff {path directory : List Char} :
    isUnder path directory = true ↔ path = directory ∨ directory ++ ['/'] <+: path := by
  rw [isUnder, Bool.or_eq_true, beq_iff_eq, Bool.and_eq_true, List.isPrefixOf_iff_prefix, beq_iff_eq]
  apply or_congr_right
  constructor
  · rintro ⟨⟨rest, rfl⟩, slashed⟩
    rw [List.drop_left, List.head?_eq_some_iff] at slashed
    obtain ⟨back, rfl⟩ := slashed
    exact ⟨back, by simp⟩
  · rintro ⟨back, rfl⟩
    rw [List.append_assoc]
    exact ⟨List.prefix_append _ _, by rw [List.drop_left]; rfl⟩

/-- A text without the slash at its end. -/
def unslashed (text : List Char) : List Char :=
  if text.getLast? = some '/' then text.dropLast else text

/-- A pattern without a glob accepts what is at or below it, with or without a slash at its end. -/
theorem plain_accepts_iff {raw path : String} :
    (PathPattern.mk raw none).accepts path = true ↔
      path.toList = unslashed raw.toList ∨ unslashed raw.toList ++ ['/'] <+: path.toList := by
  have same : path = raw ↔ path.toList = raw.toList := String.toList_inj.symm
  rw [PathPattern.accepts, Bool.or_eq_true, Bool.or_eq_true, beq_iff_eq, same, isUnder_iff,
    directoryOf?, unslashed]
  split_ifs with slashed
  · obtain ⟨front, whole⟩ := List.getLast?_eq_some_iff.mp slashed
    rw [whole, List.dropLast_concat, Option.any_some, isUnder_iff]
    constructor
    · rintro ((here | below) | here | below)
      · exact Or.inr ⟨[], by rw [here, List.append_nil]⟩
      · exact below
      · exact Or.inr ⟨[], by rw [here, List.append_nil]⟩
      · exact Or.inr ((List.prefix_append _ _).trans below)
    · exact fun below => Or.inl (Or.inr below)
  · simp

/-- A text without wildcards is a plain pattern. -/
theorem ofText_plain {text : String} (star : '*' ∉ text.toList) (mark : '?' ∉ text.toList) :
    PathPattern.ofText text = .ok ⟨text, none⟩ := by
  have plain : hasWildcard text = false := by
    rw [hasWildcard, List.any_eq_false]
    intro c inside
    have other : c ≠ '*' ∧ c ≠ '?' :=
      ⟨fun same => star (same ▸ inside), fun same => mark (same ▸ inside)⟩
    simp [other]
  rw [PathPattern.ofText, plain]
  rfl

/-- What is below something at or below a directory is below the directory. -/
theorem plain_accepts_below {raw path : String}
    (accepted : (PathPattern.mk raw none).accepts path = true) (below : String) :
    (PathPattern.mk raw none).accepts (path ++ "/" ++ below) = true := by
  have whole : (path ++ "/" ++ below).toList = path.toList ++ '/' :: below.toList := by simp
  rw [plain_accepts_iff] at accepted ⊢
  rw [whole]
  rcases accepted with here | under
  · exact Or.inr ⟨below.toList, by rw [here]; simp⟩
  · exact Or.inr (under.trans (List.prefix_append _ _))

/-- Two stars and an extension select the paths that end with it, a name between pairs of stars
selects what is below a directory of that name, and a pattern without wildcards selects what it
names, without a slash at its end, and everything below that. The last kind selects everything below
whatever it selects. -/
theorem accepts_iff_of_form :
    (∀ extension, IsLiteral extension →
      ∃ pattern, PathPattern.ofText ("**/*." ++ extension) = .ok pattern ∧
        ∀ path, pattern.accepts path = true ↔ ("." ++ extension).toList <:+ path.toList) ∧
    (∀ name, IsLiteral name →
      ∃ pattern, PathPattern.ofText ("**/" ++ name ++ "/**") = .ok pattern ∧
        ∀ path, pattern.accepts path = true ↔ HasDirectory name path) ∧
    (∀ text : String, '*' ∉ text.toList → '?' ∉ text.toList →
      ∃ pattern, PathPattern.ofText text = .ok pattern ∧
        (∀ path, pattern.accepts path = true ↔
          path.toList = unslashed text.toList ∨ unslashed text.toList ++ ['/'] <+: path.toList) ∧
        ∀ path below, pattern.accepts path = true →
          pattern.accepts (path ++ "/" ++ below) = true) := by
  refine ⟨fun extension literal => ?_, fun name literal => ?_, fun text star mark => ?_⟩
  · exact ⟨_, ofText_extension literal, fun path => extensionPattern_accepts_iff literal⟩
  · exact ⟨_, ofText_directory literal, fun path => directoryPattern_accepts_iff name path⟩
  · exact ⟨_, ofText_plain star mark, fun path => plain_accepts_iff,
      fun path below accepted => plain_accepts_below accepted below⟩

/-- The patterns that stand in for missing ones select the sources by their extension, outside the
directories of dependencies, build results and version control. -/
theorem default_selects_iff (base : String) :
    ∃ filter, Filter.ofTexts Settings.defaultIncludes Settings.defaultExcludes base = .ok filter ∧
      ∀ working path, filter.selects working path = true ↔
        (∃ extension ∈ ["cfm", "cfc", "cfml"],
          ("." ++ extension).toList <:+ (Path.matchText working path base).toList) ∧
        ∀ name ∈ ["node_modules", "target", "build", ".git"],
          ¬ HasDirectory name (Path.matchText working path base) := by
  refine ⟨⟨["cfm", "cfc", "cfml"].map extensionPattern,
    ["node_modules", "target", "build", ".git"].map directoryPattern, base⟩, rfl, ?_⟩
  have literal : ∀ extension ∈ ["cfm", "cfc", "cfml"], IsLiteral extension := by simp [IsLiteral]
  intro working path
  simp only [Filter.selects, Filter.isIncluded, Filter.isExcluded, List.any_map, Bool.and_eq_true,
    List.any_eq_true, Bool.not_eq_true', List.any_eq_false, Function.comp_apply,
    directoryPattern_accepts_iff]
  refine and_congr_left fun _ => exists_congr fun extension => and_congr_right fun listed => ?_
  exact extensionPattern_accepts_iff (literal extension listed)

end Selection

end CfmlTidy
