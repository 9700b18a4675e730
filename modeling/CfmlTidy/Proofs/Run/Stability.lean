import Mathlib
import CfmlTidy.Proofs.Run.Format

/-!
# Formatting twice

Formatting a text twice changes nothing the second time. For a file this takes that the second
run reads the text that the first one wrote, and it does unless probing takes the rewritten bytes
for another encoding: the blanks that formatting drops count in what probing goes by. A mark is
found again in any case, and so is UTF-8 for a text without stray control characters.
-/

namespace CfmlTidy.Run.Formatter

open Encoding

variable {formatter : Formatter} {workspace after : Workspace} {file : String}
  {bytes : List UInt8} {changes : List FormattingChange}

/-- What a run that writes does to a file that it can read. The file stays when it is too large,
in layout or in no encoding that is found, and otherwise it is rewritten. -/
theorem Effect.of_read (effect : Effect formatter workspace file after changes)
    (live : formatter.dryRun = false) (readable : workspace.read file = .ok bytes) :
    (after = workspace ∧ changes = [] ∧
        (isTooLarge workspace formatter.settings file = true ∨ detect bytes = .fallback ∨
          formatter.formatted bytes = formatter.textOf bytes)) ∨
      ∃ rewritten, after.read file = .ok rewritten ∧
        formatter.formatted bytes ≠ formatter.textOf bytes ∧
        (detect bytes).encode? (formatter.formatted bytes) = some rewritten := by
  cases effect with
  | skipped absent =>
    rw [accepted?_eq readable] at absent
    refine Or.inl ⟨rfl, rfl, Or.inl ?_⟩
    by_contra small
    rw [if_neg small] at absent
    contradiction
  | settled found same =>
    obtain rfl := Except.ok.inj (readable.symm.trans (read_of_accepted found))
    exact Or.inl ⟨rfl, rfl, Or.inr (Or.inr same)⟩
  | reported _ _ dry =>
    rw [live] at dry
    contradiction
  | refused found _ _ lost =>
    obtain rfl := Except.ok.inj (readable.symm.trans (read_of_accepted found))
    exact Or.inl ⟨rfl, rfl, Or.inr (Or.inl lost)⟩
  | rewritten found differs _ encoded written =>
    obtain rfl := Except.ok.inj (readable.symm.trans (read_of_accepted found))
    obtain ⟨final, again, reads, -⟩ := Workspace.write_of_read readable _
    obtain rfl := Except.ok.inj (written.symm.trans again)
    exact Or.inr ⟨_, reads, differs, encoded⟩

/-- Nothing happens to a file in layout, nor to one whose encoding is not found. -/
theorem Effect.idle (effect : Effect formatter workspace file after changes)
    (live : formatter.dryRun = false) (readable : workspace.read file = .ok bytes)
    (calm : detect bytes = .fallback ∨ formatter.formatted bytes = formatter.textOf bytes) :
    after = workspace ∧ changes = [] := by
  rcases effect.of_read live readable with ⟨stays, silent, -⟩ | ⟨_, -, differs, encoded⟩
  · exact ⟨stays, silent⟩
  · rcases calm with lost | same
    · exact absurd lost (Detection.ne_fallback_of_encode? encoded)
    · exact absurd same differs

/-- A probed file that is not in layout and not too large does not stay as it is: the bytes of the
text in layout are read as that text and not as the one before. -/
theorem Effect.moves {encoding : Encoding} (effect : Effect formatter workspace file after changes)
    (live : formatter.dryRun = false) (readable : workspace.read file = .ok bytes)
    (found : detect bytes = .probed encoding)
    (small : isTooLarge workspace formatter.settings file = false)
    (differs : formatter.formatted bytes ≠ formatter.textOf bytes) : after ≠ workspace := by
  rcases effect.of_read live readable with
    ⟨-, -, large | lost | same⟩ | ⟨rewritten, reads, -, encoded⟩
  · rw [small] at large
    contradiction
  · rw [found] at lost
    contradiction
  · exact absurd same differs
  · rintro rfl
    obtain rfl := Except.ok.inj (readable.symm.trans reads)
    exact differs (decodeBytes_of_encode? _ encoded).symm

/-- The text of rewritten bytes is in layout, unless probing finds no encoding for them or
another. -/
theorem formatted_of_rewritten {rewritten : List UInt8}
    (encoded : (detect bytes).encode? (formatter.formatted bytes) = some rewritten)
    (kept : isKept bytes rewritten = true) :
    detect rewritten = .fallback ∨
      formatter.formatted rewritten = formatter.textOf rewritten := by
  rcases decodeBytes_format encoded kept with lost | again
  · exact Or.inl lost
  · right
    rw [formatted, textOf, again]
    exact Layout.format_format _ _

/-- Nothing happens to a file that is too large. -/
theorem formatFile_of_large (large : isTooLarge workspace formatter.settings file = true) :
    (formatter.formatFile workspace file).1 = workspace ∧
      (formatter.formatFile workspace file).2.changes = [] := by
  rw [formatFile, if_pos large]
  exact ⟨rfl, rfl⟩

/-- A second run does nothing to a file, unless probing takes the bytes that the first run left
for another encoding, and then exactly when they are in layout in that encoding, or too large.
Probing does not take UTF-8 without stray control characters for another encoding. Where it takes
the bytes for what they are, their text is in layout, unless the file was too large or no encoding
is found for them. -/
theorem formatFile_stable (live : formatter.dryRun = false)
    (readable : workspace.read file = .ok bytes) :
    ∃ rewritten, (formatter.formatFile workspace file).1.read file = .ok rewritten ∧
      ((formatter.formatFile (formatter.formatFile workspace file).1 file).1 =
            (formatter.formatFile workspace file).1 ∧
          (formatter.formatFile (formatter.formatFile workspace file).1 file).2.changes = [] ↔
        isKept bytes rewritten = true ∨
          formatter.formatted rewritten = formatter.textOf rewritten ∨
          isTooLarge (formatter.formatFile workspace file).1 formatter.settings file = true) ∧
      (detect bytes = .probed utf8 → (utf8.decode bytes).any isStray = false →
        isKept bytes rewritten = true) ∧
      (isKept bytes rewritten = true → isTooLarge workspace formatter.settings file = false →
        detect rewritten ≠ .fallback →
        formatter.formatted rewritten = formatter.textOf rewritten) := by
  have first := formatFile_effect formatter workspace file
  have second := formatFile_effect formatter (formatter.formatFile workspace file).1 file
  rcases first.of_read live readable with ⟨same, silent, calm⟩ | ⟨rewritten, reads, -, encoded⟩
  · refine ⟨bytes, by rw [same, readable], ?_, fun _ _ => isKept_self bytes, ?_⟩
    · refine ⟨fun _ => Or.inl (isKept_self bytes), fun _ => ?_⟩
      rw [same, same]
      exact ⟨rfl, silent⟩
    · intro _ small found
      rcases calm with large | lost | settled
      · rw [small] at large
        contradiction
      · exact absurd lost found
      · exact settled
  · refine ⟨rewritten, reads, ⟨?_, ?_⟩, ?_, ?_⟩
    · rintro ⟨stays, -⟩
      by_contra wrong
      push Not at wrong
      obtain ⟨lost, differs, small⟩ := wrong
      obtain ⟨encoding, found⟩ := probed_of_not_kept (Bool.eq_false_iff.mpr lost)
      exact second.moves live reads found (Bool.eq_false_iff.mpr small) differs stays
    · rintro (kept | settled | large)
      · exact second.idle live reads (formatted_of_rewritten encoded kept)
      · exact second.idle live reads (Or.inr settled)
      · exact formatFile_of_large large
    · intro found tidy
      rw [found, formatted, textOf, decodeBytes_of_probed _ found] at encoded
      exact isKept_of_utf8 found tidy encoded
    · intro kept _ found
      exact (formatted_of_rewritten encoded kept).resolve_left found

/-- A trailing space is dropped once, and the second run finds nothing to do. -/
theorem formatFile_stable_space :
    (plain.formatFile (page [0x61, 0x20, 0x0A]) "page.cfm").1.read "page.cfm" =
        .ok [0x61, 0x0A] ∧
      (plain.formatFile (plain.formatFile (page [0x61, 0x20, 0x0A]) "page.cfm").1 "page.cfm").1 =
        (plain.formatFile (page [0x61, 0x20, 0x0A]) "page.cfm").1 := by
  obtain ⟨rewritten, -, stays, kept, -⟩ :=
    @formatFile_stable plain (page [0x61, 0x20, 0x0A]) "page.cfm" [0x61, 0x20, 0x0A] rfl
      (by decide +kernel)
  refine ⟨by decide +kernel, (stays.mpr (Or.inl (kept ?_ ?_))).1⟩
  · decide +kernel
  · decide +kernel

/-- Without its trailing space a line of ISO-8859-1 is taken for UTF-16, and the second run adds
another newline in that encoding. -/
theorem formatFile_unstable_latin :
    (plain.formatFile (page [0xE9, 0x61, 0x62, 0x20, 0x0A]) "page.cfm").1.read "page.cfm" =
        .ok [0xE9, 0x61, 0x62, 0x0A] ∧
      (plain.formatFile (plain.formatFile (page [0xE9, 0x61, 0x62, 0x20, 0x0A]) "page.cfm").1
          "page.cfm").1.read "page.cfm" =
        .ok [0xE9, 0x61, 0x62, 0x0A, 0x00, 0x0A] := by
  decide +kernel

end CfmlTidy.Run.Formatter
