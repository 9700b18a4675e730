import Mathlib
import CfmlTidy.Proofs.Source.Declaration
import CfmlTidy.Proofs.Source.Region
import CfmlTidy.Proofs.Text.Place
import CfmlTidy.Rule.Structure

/-!
# Lengths of functions

The rule on function lengths tells code from comments by how a line starts, and the mask tells them
by where comments start and end. A line of a body is looked at here together with the region that it
starts in, which says on which lines the two differ: the rule overlooks code that shares its line
with the end of a comment, and takes comment text for code that does not look like the start of a
comment. So the count of the rule and the number of lines with code differ by the numbers of these
lines, and a report is right exactly when both numbers are equal or both counts are within the
limit.
-/

namespace CfmlTidy

open Script (StartsComment)
open Source (MaskedLine Region linesFrom mask maskFrom regionOf)
open Text (ReadsAt allBlank byteLength exists_trim isBlank line_positionAt_bytes of_mem_splitBy
  positionAt sliceBytes splitOn trim trim_eq_nil_iff)

namespace Source.MaskedLine

/-- The mask shows a character of the line that is not blank. -/
def HasCode (line : MaskedLine) : Prop := allBlank line.shown = false

/-- A line with code that does not look like one. It starts in code with a block comment and has
code behind it, or is the closing delimiter of a comment that was never opened; or it starts in a
comment, in which it looks like the start of another one, and has code behind the end. -/
def Overlooked (line : MaskedLine) : Prop :=
  if line.region = .code then
    (line.HasCode ∧ ['/', '*'] <+: trim line.text) ∨ trim line.text = ['*', '/']
  else line.HasCode ∧ (['/', '/'] <+: trim line.text ∨ ['/', '*'] <+: trim line.text)

/-- A line without code that looks like one. It starts in code with a comment in markup, or it
starts in a comment and is neither blank nor the closing delimiter of a block comment, and does not
look like the start of another comment. -/
def Mistaken (line : MaskedLine) : Prop :=
  ¬ line.HasCode ∧
    if line.region = .code then ['<', '!', '-', '-', '-'] <+: trim line.text
    else trim line.text ≠ [] ∧ trim line.text ≠ ['*', '/'] ∧ ¬ ['/', '/'] <+: trim line.text ∧
      ¬ ['/', '*'] <+: trim line.text

/-- Whether a line has code is decided by its mask. -/
instance (line : MaskedLine) : Decidable line.HasCode :=
  inferInstanceAs (Decidable (_ = false))

/-- Whether a line is overlooked is decided by its text and its mask. -/
instance (line : MaskedLine) : Decidable line.Overlooked :=
  inferInstanceAs (Decidable (ite _ _ _))

/-- Whether a line is mistaken for code is decided by its text and its mask. -/
instance (line : MaskedLine) : Decidable line.Mistaken :=
  inferInstanceAs (Decidable (_ ∧ ite _ _ _))

section Code

variable {line : MaskedLine}

/-- A line has code when its mask shows a character that is not blank. -/
theorem hasCode_iff : line.HasCode ↔ ∃ c ∈ line.shown, isBlank c = false := by
  simp [HasCode, allBlank, List.all_eq_false]

/-- Only what is not blank in a line can be code. -/
theorem HasCode.trim_ne_nil (code : line.HasCode) : trim line.text ≠ [] := by
  intro nothing
  obtain ⟨c, inside, visible⟩ := hasCode_iff.mp code
  have noSpace : c ≠ ' ' := by
    rintro rfl
    contradiction
  have source := (covers_maskFrom line.region line.text).mem inside noSpace
  rw [List.all_eq_true.mp ((trim_eq_nil_iff line.text).mp nothing) c source] at visible
  contradiction

/-- A line whose mask shows only blanks has no code. -/
theorem not_hasCode_of_forall (blank : ∀ c ∈ line.shown, isBlank c = true) : ¬ line.HasCode := by
  rw [HasCode, allBlank, List.all_eq_true.mpr blank]
  exact Bool.false_ne_true.symm

/-- What was blanked out has only blanks. -/
theorem isBlank_of_mem_blanks {text : List Char} : ∀ c ∈ blanks text, isBlank c = true := by
  intro c inside
  rcases of_mem_blanks inside with rfl | rfl <;> rfl

/-- A line that starts in code with a line comment has no code. -/
theorem not_hasCode_of_lineComment (code : line.region = .code) (sameLine : '\n' ∉ line.text)
    (starts : ['/', '/'] <+: trim line.text) : ¬ line.HasCode := by
  obtain ⟨lead, trail, whole, before, -, -⟩ := exists_trim line.text
  obtain ⟨body, same⟩ := starts
  rw [← same] at whole
  have rest : '\n' ∉ body ++ trail := by
    intro inside
    rw [whole, List.append_assoc] at sameLine
    exact sameLine (List.mem_append_right lead (List.mem_append_right _ inside))
  have hidden : maskFrom .lineComment (body ++ trail) = blanks (body ++ trail) := by
    have ended := maskFrom_line rest (Or.inl rfl)
    rwa [List.append_nil, maskFrom_nil, List.append_nil] at ended
  have shown : line.shown = lead ++ ' ' :: ' ' :: blanks (body ++ trail) := by
    rw [MaskedLine.shown, code, whole,
      maskFrom_code_append fun c inside => .of_isBlank (before c inside), ← hidden]
    rfl
  refine not_hasCode_of_forall ?_
  rw [shown]
  exact List.forall_mem_append.mpr ⟨before, List.forall_mem_cons.mpr ⟨rfl,
    List.forall_mem_cons.mpr ⟨rfl, isBlank_of_mem_blanks⟩⟩⟩

/-- A line that starts in code has code if it is not blank and does not start with a comment. -/
theorem hasCode_of_not_startsComment (code : line.region = .code) (filled : trim line.text ≠ [])
    (noComment : ¬ StartsComment (trim line.text)) : line.HasCode := by
  obtain ⟨lead, trail, whole, before, behind, starts⟩ := exists_trim line.text
  obtain ⟨c, rest, left⟩ := List.exists_cons_of_ne_nil filled
  rw [left] at whole noComment starts
  have noComment' : ¬ StartsComment (c :: (rest ++ trail)) := by
    intro starts
    cases trail with
    | nil => exact noComment (by rwa [List.append_nil] at starts)
    | cons blank more =>
      have apart := IsApart.of_isBlank (behind blank List.mem_cons_self)
      rw [← List.cons_append] at starts
      exact noComment (apart.startsComment starts)
  refine hasCode_iff.mpr ⟨c, ?_, starts c rfl⟩
  rw [MaskedLine.shown, code, whole,
    maskFrom_code_append fun c inside => .of_isBlank (before c inside), List.cons_append,
    maskFrom_code noComment']
  simp

/-- A line of a comment that is only a closing delimiter has no code. The delimiter ends the comment
or is text of it, and only blanks follow. -/
theorem not_hasCode_of_closing {kind : CommentKind} (kinds : kind = .block ∨ kind = .tag)
    (comment : line.region = regionOf kind) (closes : trim line.text = ['*', '/']) :
    ¬ line.HasCode := by
  obtain ⟨lead, trail, whole, before, behind, -⟩ := exists_trim line.text
  rw [closes] at whole
  have early : ∀ c ∈ lead, c ∉ kind.closing := fun c inside =>
    ((IsApart.of_isBlank (before c inside)).not_mem_delimiter kind).2
  have late : ∀ c ∈ trail, IsApart c := fun c inside => .of_isBlank (behind c inside)
  refine not_hasCode_of_forall ?_
  rw [MaskedLine.shown, comment, whole, maskFrom_inside_append kinds early]
  refine List.forall_mem_append.mpr ⟨isBlank_of_mem_blanks, ?_⟩
  rcases kinds with rfl | rfl
  · have shown : maskFrom (regionOf .block) (['*', '/'] ++ trail) = ' ' :: ' ' :: trail := by
      have trailing := maskFrom_code_append late []
      rw [List.append_nil, maskFrom_nil, List.append_nil] at trailing
      exact congrArg (' ' :: ' ' :: ·) trailing
    rw [shown]
    exact List.forall_mem_cons.mpr ⟨rfl, List.forall_mem_cons.mpr ⟨rfl, behind⟩⟩
  · have inside : ∀ c ∈ ['*', '/'] ++ trail, c ∉ CommentKind.tag.closing := by
      refine List.forall_mem_append.mpr ⟨by simp [CommentKind.closing], fun c inside => ?_⟩
      exact ((late c inside).not_mem_delimiter .tag).2
    have hidden := maskFrom_inside_append (Or.inr rfl) inside []
    rw [List.append_nil, maskFrom_nil, List.append_nil] at hidden
    rw [hidden]
    exact isBlank_of_mem_blanks

/-- A line that is overlooked has code. -/
theorem Overlooked.hasCode (missed : line.Overlooked) : line.HasCode := by
  rw [Overlooked] at missed
  split_ifs at missed with code
  · rcases missed with ⟨shown, -⟩ | closes
    · exact shown
    · refine hasCode_of_not_startsComment code ?_ ?_
      · rw [closes]
        exact List.cons_ne_nil _ _
      · rw [closes]
        exact Script.not_startsComment (by decide) (by decide) ['/']
  · exact missed.1

end Code

end Source.MaskedLine

section Bodies

variable {text : List Char} {function : Source.FunctionDecl} {first last : Nat}

/-- The body of a function is masked as it would be alone: it starts in code, and what follows it is
not part of a delimiter. The body ends at a brace that the mask shows, or it is all that follows. -/
theorem Source.exists_masked_body (listed : function ∈ functionsOf (mask text))
    (extent : function.body = some (first, last)) :
    ∃ body, sliceBytes first last text = some body ∧
      sliceBytes first last (mask text) = some (mask body) := by
  obtain ⟨hidden, behind, bodyAt⟩ := exists_bodyAt_of_mem_functionsOf listed extent
  obtain ⟨offset, rfl, reads⟩ := bodyAt.opened
  obtain ⟨front, back, rfl, rfl, -, rest⟩ :=
    exists_cut_of_mask (by decide) (by decide) (by decide) reads
  have cut : ∃ body after, back = body ++ after ∧ hidden = mask body := by
    rcases bodyAt.ends with ⟨-, closed⟩ | rfl
    · obtain ⟨after, rfl⟩ := List.head?_eq_some_iff.mp closed
      obtain ⟨body, later, rfl, -, whole, rfl⟩ := exists_cut_of_mask (by decide) (by decide)
        (by decide) (show ReadsAt (mask back) _ _ from ⟨hidden, rest.symm, rfl⟩)
      rw [whole] at rest
      exact ⟨body, '}' :: later, rfl, List.append_cancel_right rest⟩
    · exact ⟨back, [], (List.append_nil back).symm, by rwa [List.append_nil] at rest⟩
  obtain ⟨body, after, rfl, rfl⟩ := cut
  have size : byteLength (mask body) = byteLength body := (covers_maskFrom _ _).byteLength_eq
  have there : ReadsAt (front ++ '{' :: (body ++ after)) (byteLength front + 1) (body ++ after) :=
    ReadsAt.next ⟨front, rfl, rfl⟩
  have shown : ReadsAt (mask (front ++ '{' :: (body ++ after))) (byteLength front + 1)
      (mask body ++ behind) := reads.next
  refine ⟨body, ?_, ?_⟩
  · rw [bodyAt.last_eq, size]
    exact there.slice
  · rw [bodyAt.last_eq]
    exact shown.slice

end Bodies

namespace Rule

open Source (map_text_linesFrom region_of_mem_linesFrom splitOn_maskFrom)
open Source.MaskedLine (hasCode_of_not_startsComment not_hasCode_of_closing
  not_hasCode_of_lineComment)

/-- What the rule takes for code. -/
theorem isCodeLine_iff_trim (text : List Char) :
    isCodeLine false text = true ↔ trim text ≠ [] ∧ ¬ ['/', '/'] <+: trim text ∧
      ¬ ['/', '*'] <+: trim text ∧ trim text ≠ ['*', '/'] := by
  simp only [isCodeLine, Bool.false_and, Bool.not_false, Bool.and_true, Bool.and_eq_true,
    Bool.not_eq_true', List.isEmpty_iff, bne_iff_ne, ne_eq, and_assoc, ← Bool.not_eq_true,
    List.isPrefixOf_iff_prefix]

/-- The rule takes a line for code that has code and is not overlooked, or is mistaken for code. -/
theorem isCodeLine_iff {line : MaskedLine} (sameLine : '\n' ∉ line.text)
    (starts : line.region ∈ [Region.code, .blockComment, .tagComment]) :
    isCodeLine false line.text = true ↔ (line.HasCode ∧ ¬ line.Overlooked) ∨ line.Mistaken := by
  have filled : line.HasCode → trim line.text ≠ [] := MaskedLine.HasCode.trim_ne_nil
  rw [isCodeLine_iff_trim, MaskedLine.Overlooked, MaskedLine.Mistaken]
  by_cases code : line.region = .code
  · rw [if_pos code, if_pos code]
    have hidden := not_hasCode_of_lineComment code sameLine
    have shown := hasCode_of_not_startsComment code
    by_cases comment : StartsComment (trim line.text)
    · obtain ⟨kind, listed, tail, same⟩ := comment
      simp only [List.mem_cons, List.not_mem_nil, or_false] at listed
      rw [← same] at hidden ⊢
      rcases listed with rfl | rfl | rfl
      · simpa [CommentKind.opening] using hidden
      · simp [CommentKind.opening]
      · simpa [CommentKind.opening] using Decidable.em line.HasCode
    · have noLine : ¬ ['/', '/'] <+: trim line.text := fun opens => comment ⟨.line, by simp, opens⟩
      have noBlock : ¬ ['/', '*'] <+: trim line.text := fun opens =>
        comment ⟨.block, by simp, opens⟩
      have noTag : ¬ ['<', '!', '-', '-', '-'] <+: trim line.text := fun opens =>
        comment ⟨.tag, by simp, opens⟩
      tauto
  · rw [if_neg code, if_neg code]
    have closing : trim line.text = ['*', '/'] → ¬ line.HasCode := by
      simp only [List.mem_cons, code, false_or, List.not_mem_nil, or_false] at starts
      rcases starts with block | tag
      · exact not_hasCode_of_closing (Or.inl rfl) block
      · exact not_hasCode_of_closing (Or.inr rfl) tag
    tauto

/-- The lines of a body, each with the region that it starts in. -/
def bodyLines (body : List Char) : List MaskedLine := linesFrom .code (splitOn '\n' body)

/-- The number of lines of a masked text in which something is shown. -/
def visibleLines (masked : List Char) : Nat := (splitOn '\n' masked).countP (!allBlank ·)

/-- The number of lines of a body with code that the rule overlooks. -/
def overlookedLines (body : List Char) : Nat := (bodyLines body).countP fun line => line.Overlooked

/-- The number of lines of a body that the rule mistakes for code. -/
def mistakenLines (body : List Char) : Nat := (bodyLines body).countP fun line => line.Mistaken

/-- The visible lines of the mask of a body are the lines of the body with code. -/
theorem visibleLines_mask (body : List Char) :
    visibleLines (mask body) = (bodyLines body).countP fun line => line.HasCode := by
  rw [visibleLines, mask, splitOn_maskFrom Region.isQuoted_code, List.countP_map, bodyLines]
  refine List.countP_congr fun line _ => ?_
  rw [Function.comp_apply, Bool.not_eq_true', decide_eq_true_iff, MaskedLine.HasCode]

/-- The rule counts the lines of a body that look like code. -/
theorem codeLines_eq (body : List Char) :
    codeLines body = (bodyLines body).countP fun line => isCodeLine false line.text := by
  have texts : (bodyLines body).map MaskedLine.text = splitOn '\n' body := map_text_linesFrom
  rw [codeLines, ← texts, List.countP_map]
  rfl

/-- The rule counts the lines with code, without those that it overlooks and with those that it
mistakes for code. -/
theorem codeLines_add_overlookedLines (body : List Char) :
    codeLines body + overlookedLines body = visibleLines (mask body) + mistakenLines body := by
  have each : ∀ line ∈ bodyLines body,
      isCodeLine false line.text = true ↔ (line.HasCode ∧ ¬ line.Overlooked) ∨ line.Mistaken := by
    intro line listed
    refine isCodeLine_iff ?_ (region_of_mem_linesFrom listed (by simp))
    have source : line.text ∈ splitOn '\n' body := by
      rw [← @map_text_linesFrom .code (splitOn '\n' body)]
      exact List.mem_map_of_mem listed
    exact fun inside => absurd (of_mem_splitBy source '\n' inside).2 (by decide)
  rw [codeLines_eq, visibleLines_mask, overlookedLines, mistakenLines]
  generalize bodyLines body = lines at each
  induction lines with
  | nil => rfl
  | cons line rest ih =>
    obtain ⟨here, others⟩ := List.forall_mem_cons.mp each
    have later := ih others
    have shown : line.Overlooked → line.HasCode := MaskedLine.Overlooked.hasCode
    have apart : line.Mistaken → ¬ line.HasCode := And.left
    simp only [List.countP_cons, decide_eq_true_eq, here]
    by_cases missed : line.Overlooked
    · have right : ¬ line.Mistaken := fun mistaken => apart mistaken (shown missed)
      simp only [missed, shown missed, right, not_true_eq_false, and_false, or_false, if_true,
        if_false]
      omega
    · by_cases code : line.HasCode
      · have right : ¬ line.Mistaken := fun mistaken => apart mistaken code
        simp only [missed, code, right, not_false_eq_true, and_true, or_false, if_true, if_false]
        omega
      · simp only [missed, code, false_and, false_or, if_false]
        omega

section Reports

variable {subject : Subject} {limit : Nat} {function : Source.FunctionDecl}

/-- What is reported of a function of which a number of lines count: above the limit, a warning at
the first column of the line that the function starts on, with its name, the number and the
limit. -/
def lengthReport (subject : Subject) (limit count : Nat) (function : Source.FunctionDecl) :
    Option Violation :=
  let line := (positionAt subject.parsed.content function.start).line
  if limit < count then
    some
      { ruleId := "MAX_FUNCTION_LENGTH"
        message := "Function '" ++ String.ofList function.name ++ "' is too long (" ++
          toString count ++ " lines, max " ++ toString limit ++ ")"
        severity := .warning
        file := subject.parsed.path
        line := line
        column := 1
        endLine := line
        endColumn := 2
        category := some "BEST_PRACTICE"
        snippet := none
        fix := none }
  else none

/-- Two counts lead to the same report exactly when they are equal or both within the limit. -/
theorem lengthReport_eq_iff {count other : Nat} :
    lengthReport subject limit count function = lengthReport subject limit other function ↔
      count = other ∨ count ≤ limit ∧ other ≤ limit := by
  unfold lengthReport
  split_ifs with long long'
  · rw [or_iff_left (by omega)]
    constructor
    · intro same
      have message := congrArg Violation.message (Option.some.inj same)
      simp only [String.append_left_inj, String.append_right_inj] at message
      exact Nat.repr_inj.mp message
    · rintro rfl
      rfl
  · exact iff_of_false (by simp) (by omega)
  · exact iff_of_false (by simp) (by omega)
  · exact iff_of_true rfl (by omega)

end Reports

/-- The report on the length of a function: what is reported with the number of code lines of its
body, if it has one. -/
def lengthReportOf (subject : Subject) (limit : Nat) (function : Source.FunctionDecl) :
    Option Violation :=
  function.body.bind fun range =>
    (sliceBytes range.1 range.2 subject.content).bind fun body =>
      lengthReport subject limit (codeLines body) function

/-- With a limit, the rule on function lengths reports on one function after the other. -/
theorem check_maxFunctionLength {subject : Subject}
    (positive : 0 < subject.settings.maxFunctionLength) :
    maxFunctionLength.check subject = .ok (subject.functions.filterMap
      (lengthReportOf subject subject.settings.maxFunctionLength.toNat)) := by
  have limited : limit? subject.settings.maxFunctionLength =
      some subject.settings.maxFunctionLength.toNat := if_pos positive
  simp only [maxFunctionLength, ofFindings, limited, List.map_filterMap, Except.ok.injEq]
  refine List.filterMap_congr fun function _ => ?_
  cases extent : function.body with
  | none => simp [lengthReportOf, extent]
  | some range =>
    cases cut : sliceBytes range.1 range.2 subject.content with
    | none => simp [lengthReportOf, extent, cut]
    | some body =>
      have counted := line_positionAt_bytes subject.content function.start
      have line : max (subject.lineStart function.start).line 1 =
          (positionAt subject.parsed.content function.start).line :=
        max_eq_left (counted ▸ Nat.le_add_left 1 _)
      by_cases long : subject.settings.maxFunctionLength.toNat < codeLines body
      · have column : (subject.lineStart function.start).column = 1 := rfl
        simp [lengthReportOf, lengthReport, extent, cut, long, Finding.warning, Violation.located,
          line, column, Category.practice]
      · simp [lengthReportOf, lengthReport, extent, cut, long]

/-- With a limit, the rule on function lengths reports on every function with a body. The mask of
the body tells which of its lines have code. What is reported is what this number of lines leads to
exactly when the rule overlooks as many lines as it mistakes for code, or both counts are within the
limit. -/
theorem maxFunctionLength_report_iff (parsed : Parsed) {settings : Settings}
    (positive : 0 < settings.maxFunctionLength) :
    let subject := Subject.ofParsed parsed settings
    let limit := settings.maxFunctionLength.toNat
    ∃ report : Source.FunctionDecl → Option Violation,
      maxFunctionLength.check subject = .ok (subject.functions.filterMap report) ∧
      (∀ function ∈ subject.functions, function.body = none → report function = none) ∧
      ∀ function ∈ subject.functions, ∀ first last, function.body = some (first, last) →
        ∃ body, sliceBytes first last parsed.content = some body ∧
          sliceBytes first last subject.masked = some (mask body) ∧
          report function = lengthReport subject limit (codeLines body) function ∧
          codeLines body + overlookedLines body =
            visibleLines (mask body) + mistakenLines body ∧
          (report function = lengthReport subject limit (visibleLines (mask body)) function ↔
            overlookedLines body = mistakenLines body ∨
              codeLines body ≤ limit ∧ visibleLines (mask body) ≤ limit) := by
  intro subject limit
  refine ⟨lengthReportOf subject limit, check_maxFunctionLength positive, ?_, ?_⟩
  · intro function _ missing
    rw [lengthReportOf, missing]
    rfl
  · intro function listed first last extent
    obtain ⟨body, source, shown⟩ := Source.exists_masked_body listed extent
    have counts := codeLines_add_overlookedLines body
    have reported : lengthReportOf subject limit function =
        lengthReport subject limit (codeLines body) function := by
      have cut : sliceBytes first last subject.content = some body := source
      rw [lengthReportOf, extent, Option.bind_some, cut, Option.bind_some]
    refine ⟨body, source, shown, reported, counts, ?_⟩
    rw [reported, lengthReport_eq_iff]
    refine or_congr_left ?_
    omega

/-- The body of a function with one line of code, below a comment of two lines. -/
def commentedBody : List Char := "\n/* a\n b */\nx = 1;\n".toList

/-- A function with that body. -/
def commentedFunction : List Char := "function f() \x7b".toList ++ commentedBody ++ ['\x7d', '\n']

/-- Settings that allow one code line in a function. -/
def terse : Settings :=
  Settings.layered (.obj [("linting", .obj [("rules", .obj
    [("codeStructure", .obj [("maxFunctionLength", .int 1)])])])]) "/work"

/-- What rules see of the function. -/
def commentedSubject : Subject := .ofParsed (.ofContent "a.cfc" commentedFunction true) terse

/-- The second line of the comment is mistaken for code, so the report on the function is not the
one that its only line of code leads to. -/
theorem maxFunctionLength_report_commented :
    0 < terse.maxFunctionLength ∧ mistakenLines commentedBody = 1 ∧
      ∃ report : Source.FunctionDecl → Option Violation,
        maxFunctionLength.check commentedSubject =
          .ok (commentedSubject.functions.filterMap report) ∧
        ∀ function ∈ commentedSubject.functions,
          report function ≠ lengthReport commentedSubject 1 1 function := by
  have positive : 0 < terse.maxFunctionLength := by decide +kernel
  obtain ⟨report, checked, -, reports⟩ :=
    maxFunctionLength_report_iff (.ofContent "a.cfc" commentedFunction true) positive
  refine ⟨positive, by decide +kernel, report, checked, fun function listed same => ?_⟩
  have extents : commentedSubject.functions.map (·.body) = [some (14, 33)] := by decide +kernel
  have extent : function.body = some (14, 33) := by
    have among : function.body ∈ commentedSubject.functions.map (·.body) :=
      List.mem_map_of_mem listed
    rw [extents] at among
    exact List.mem_singleton.mp among
  obtain ⟨body, source, -, -, -, agrees⟩ := reports function listed 14 33 extent
  have cut : sliceBytes 14 33 commentedFunction = some commentedBody := by decide +kernel
  obtain rfl := Option.some.inj (cut.symm.trans source)
  have limit : terse.maxFunctionLength.toNat = 1 := by decide +kernel
  have visible : visibleLines (mask commentedBody) = 1 := by decide +kernel
  rw [limit, visible] at agrees
  exact absurd (agrees.mp same) (by decide +kernel)

/-- The function is reported to have two lines, and its mask shows something in one. -/
theorem maxFunctionLength_counts_comment :
    (maxFunctionLength.outcome commentedSubject).map (·.message) =
        ["Function 'f' is too long (2 lines, max 1)"] ∧
      commentedSubject.functions.map (fun function => function.body.bind fun range =>
        (sliceBytes range.1 range.2 commentedSubject.masked).map visibleLines) = [some 1] := by
  decide +kernel

end Rule

end CfmlTidy
