import Mathlib
import CfmlTidy.Proofs.Path.Resolution
import CfmlTidy.Proofs.Selection.Pattern

/-!
# Spellings of a path

Patterns see a path as it is written. A path that lies below the base directory and its resolved
form are selected alike by all patterns exactly when the path goes straight down from the base:
otherwise patterns for two dots tell them apart.
-/

namespace CfmlTidy

namespace Path

/-- Two dots as the first segment of a text. -/
theorem takeWhile_eq_dots_iff {text : List Char} :
    text.takeWhile (!· == '/') = ['.', '.'] ↔
      text = ['.', '.'] ∨ ∃ back, text = '.' :: '.' :: '/' :: back := by
  constructor
  · intro first
    have whole := List.takeWhile_append_dropWhile (p := (!· == '/')) (l := text)
    rw [first] at whole
    cases rest : text.dropWhile (!· == '/') with
    | nil =>
      rw [rest] at whole
      exact Or.inl whole.symm
    | cons c back =>
      rw [rest] at whole
      have stops := List.head?_dropWhile_not (!· == '/') text
      rw [rest] at stops
      have slashed : c = '/' := by simpa using stops
      subst slashed
      exact Or.inr ⟨back, whole.symm⟩
  · rintro (rfl | ⟨back, rfl⟩) <;> rfl

/-- Two dots are a segment when they are the first, or the first after a slash. -/
theorem climbs_iff {text : String} :
    Climbs text ↔ text.toList.takeWhile (!· == '/') = ['.', '.'] ∨
      ∃ front back, text.toList = front ++ '/' :: back ∧
        back.takeWhile (!· == '/') = ['.', '.'] := by
  obtain ⟨others, split, later⟩ := Text.splitBy_eq_cons (· == '/') text.toList
  rw [Climbs, Text.splitOn, split, List.mem_cons, later]
  apply or_congr
  · exact eq_comm
  · constructor
    · rintro ⟨front, c, back, whole, slashed, first⟩
      obtain rfl := beq_iff_eq.mp slashed
      exact ⟨front, back, whole, first.symm⟩
    · rintro ⟨front, back, whole, first⟩
      exact ⟨front, '/', back, whole, by rfl, first.symm⟩

end Path

namespace Selection

open CfmlTidy.Path (Climbs Straight isAbsolute matchText normalized resolved steps)

/-- Patterns for two dots at the end of a path and before a slash. -/
def climbing : List String := ["**/..", "**/../**"]

/-- The filter of paths that climb consists of two patterns. -/
theorem ofTexts_climbing (base : String) : Filter.ofTexts climbing [] base =
    .ok ⟨[⟨"**/..", some [.leadingDirs, .literal '.', .literal '.']⟩,
      ⟨"**/../**", some [.leadingDirs, .literal '.', .literal '.', .trailingDirs]⟩], [], base⟩ := by
  rfl

/-- The patterns for two dots accept the texts that climb. The texts of the two patterns are among
them. -/
theorem climbing_accepts_iff {path : String} :
    (PathPattern.mk "**/.." (some [.leadingDirs, .literal '.', .literal '.'])).accepts path = true ∨
      (PathPattern.mk "**/../**"
        (some [.leadingDirs, .literal '.', .literal '.', .trailingDirs])).accepts path = true ↔
      Climbs path := by
  rw [accepts_glob_iff (by rfl) (by simp), accepts_glob_iff (by rfl) (by simp), Path.climbs_iff]
  simp only [Glob.leadingDirs_accepts_iff, Glob.dots_accepts_iff, Glob.belowDots_accepts_iff,
    Path.takeWhile_eq_dots_iff]
  constructor
  · rintro ((rfl | here | ⟨front, back, whole, last⟩) | (rfl | here | ⟨front, back, whole, below⟩))
    · exact Or.inr ⟨['*', '*'], ['.', '.'], by rfl, Or.inl rfl⟩
    · exact Or.inl (Or.inl here)
    · exact Or.inr ⟨front, back, whole, Or.inl last⟩
    · exact Or.inr ⟨['*', '*'], ['.', '.', '/', '*', '*'], by rfl, Or.inr ⟨['*', '*'], rfl⟩⟩
    · exact Or.inl (Or.inr here)
    · exact Or.inr ⟨front, back, whole, Or.inr below⟩
  · rintro ((here | here) | ⟨front, back, whole, last | below⟩)
    · exact Or.inl (Or.inr (Or.inl here))
    · exact Or.inr (Or.inr (Or.inl here))
    · exact Or.inl (Or.inr (Or.inr ⟨front, back, whole, last⟩))
    · exact Or.inr (Or.inr (Or.inr ⟨front, back, whole, below⟩))

/-- A filter for two dots selects the paths of which it sees two dots. -/
theorem exists_climbing_filter (base : String) :
    ∃ filter, Filter.ofTexts climbing [] base = .ok filter ∧ ∀ working path,
      filter.selects working path = true ↔ Climbs (matchText working path base) := by
  refine ⟨_, ofTexts_climbing base, fun working path => ?_⟩
  rw [← climbing_accepts_iff]
  simp [Filter.selects, Filter.isIncluded, Filter.isExcluded]

/-- A filter keeps the base that it was compiled for. -/
theorem base_of_ofTexts {includes excludes : List String} {base : String} {filter : Filter}
    (compiled : Filter.ofTexts includes excludes base = .ok filter) : filter.base = base := by
  unfold Filter.ofTexts at compiled
  cases first : includes.mapM PathPattern.ofText with
  | error problem =>
    rw [first] at compiled
    contradiction
  | ok included =>
    cases second : excludes.mapM PathPattern.ofText with
    | error problem =>
      rw [first, second] at compiled
      contradiction
    | ok excluded =>
      rw [first, second] at compiled
      rw [← Except.ok.inj compiled]

/-- Take a path that lies at or below a base without two dots once its dots are resolved. It goes
straight down from the base exactly when the text that patterns see has no two dots, exactly when
that text is the one of the resolved path, and exactly when all filters treat both alike. -/
theorem straight_selection_iff {base path : String} (above : isAbsolute base = true)
    (plain : .up ∉ steps base) (rooted : isAbsolute path = true)
    (below : resolved base <+: resolved path) (working : String) :
    (Straight path base ↔ ¬ Climbs (matchText working path base)) ∧
      (Straight path base ↔
        matchText working path base = matchText working (normalized path) base) ∧
      (Straight path base ↔
        ∀ includes excludes filter, Filter.ofTexts includes excludes base = .ok filter →
          filter.selects working path = filter.selects working (normalized path)) := by
  have free := Path.straight_iff above rooted working
  have same := Path.matchText_normalized_iff above plain rooted below working
  refine ⟨free, same, ?_, ?_⟩
  · intro straight includes excludes filter compiled
    rw [Filter.selects, Filter.selects, base_of_ofTexts compiled, same.mp straight]
  · intro alike
    obtain ⟨filter, compiled, sees⟩ := exists_climbing_filter base
    have level := (Path.straight_iff above (Path.isAbsolute_normalized path) working).mp
      (Path.straight_normalized above plain below)
    rw [free, ← sees, alike climbing [] filter compiled, sees]
    exact level

/-- A detour over a dot and a doubled slash is no climb, so the path is matched as its normal
form. -/
theorem straight_selection_dotted :
    let base := "/work/app"
    let path := "/work/./app//src/x.cfc"
    isAbsolute base = true ∧ .up ∉ steps base ∧ isAbsolute path = true ∧
      resolved base <+: resolved path ∧
      matchText "/" path base = matchText "/" (normalized path) base := by
  intro base path
  have above : isAbsolute base = true := by decide +kernel
  have plain : .up ∉ steps base := by decide +kernel
  have rooted : isAbsolute path = true := by decide +kernel
  have below : resolved base <+: resolved path := by decide +kernel
  have straight : Straight path base :=
    ⟨[.name "src", .name "x.cfc"], by decide +kernel, by decide +kernel⟩
  obtain ⟨-, same, -⟩ := straight_selection_iff above plain rooted below "/"
  exact ⟨above, plain, rooted, below, same.mp straight⟩

/-- A path that leaves the base and comes back lies below it, but patterns see it climb, and a
pattern that selects the resolved path does not select it. -/
theorem selection_misses_detour :
    let base := "/work/app"
    let path := "/work/app/../app/src/x.cfc"
    (isAbsolute base = true ∧ .up ∉ steps base ∧ isAbsolute path = true ∧
      resolved base <+: resolved path) ∧
      normalized path = "/work/app/src/x.cfc" ∧
      matchText "/" path base = "../app/src/x.cfc" ∧
      matchText "/" (normalized path) base = "src/x.cfc" ∧
      ∃ filter, Filter.ofTexts ["src/**"] [] base = .ok filter ∧
        filter.selects "/" (normalized path) = true ∧ filter.selects "/" path = false := by
  intro base path
  refine ⟨by decide +kernel, by decide +kernel, by decide +kernel, by decide +kernel, ?_⟩
  exact ⟨_, rfl, by decide +kernel, by decide +kernel⟩

end Selection

end CfmlTidy
