import Mathlib
import CfmlTidy.Proofs.Text.Position
import CfmlTidy.Text.Pattern

/-!
# What patterns match

`Matches` says which stretches of a text a pattern matches and what its groups record, without an
order of preference. Everything that running a pattern finds is such a match, so facts about what is
found are facts about `Matches`, by induction on it. Two of them are used for places: what the first
character of a match or of a group can be, and that some character of a match is of a kind.
-/

namespace CfmlTidy.Text.Pattern

/-- A match of a pattern from one place to another, with what its groups record. -/
inductive Matches : Pattern → (start stop : Cursor) → List Capture → Prop where
  /-- Nothing. -/
  | nothing {cursor : Cursor} : Matches .nothing cursor cursor []
  /-- One character of a set. -/
  | one {set : Char → Bool} {before : Option Char} {c : Char} {rest : List Char} {offset : Nat}
    (member : set c = true) :
    Matches (.one set) ⟨before, c :: rest, offset⟩ ⟨some c, rest, offset + c.utf8Size⟩ []
  /-- A run ends anywhere. -/
  | ends {set : Char → Bool} {cursor : Cursor} : Matches (.many set) cursor cursor []
  /-- A run goes on with a character of its set. -/
  | more {set : Char → Bool} {before : Option Char} {c : Char} {rest : List Char} {offset : Nat}
    {stop : Cursor} {captures : List Capture} (member : set c = true)
    (later : Matches (.many set) ⟨some c, rest, offset + c.utf8Size⟩ stop captures) :
    Matches (.many set) ⟨before, c :: rest, offset⟩ stop captures
  /-- The start of a line. -/
  | lineStart {cursor : Cursor} (starts : atLineStart cursor = true) :
    Matches .lineStart cursor cursor []
  /-- The edge of a word. -/
  | wordEdge {cursor : Cursor} (edge : atWordEdge cursor = true) :
    Matches .wordEdge cursor cursor []
  /-- One pattern and then another. -/
  | seq {first second : Pattern} {start middle stop : Cursor} {early late : List Capture}
    (head : Matches first start middle early) (tail : Matches second middle stop late) :
    Matches (.seq first second) start stop (early ++ late)
  /-- The first of two patterns. -/
  | left {first second : Pattern} {start stop : Cursor} {captures : List Capture}
    (chosen : Matches first start stop captures) :
    Matches (.either first second) start stop captures
  /-- The second of two patterns. -/
  | right {first second : Pattern} {start stop : Cursor} {captures : List Capture}
    (chosen : Matches second start stop captures) :
    Matches (.either first second) start stop captures
  /-- A group records what its body matches. -/
  | group {number : Nat} {body : Pattern} {start stop : Cursor} {captures : List Capture}
    (inside : Matches body start stop captures) :
    Matches (.group number body) start stop
      (captures ++
        [⟨number, start.offset, start.rest.take (start.rest.length - stop.rest.length)⟩])

section Running

variable {β : Type} {result : β}

/-- A run of characters that is found is a match. -/
theorem matches_of_runMany {set : Char → Bool} {next : Cursor → Option β} {before : Option Char}
    {offset : Nat} {text : List Char}
    (found : runMany set next before offset text = some result) :
    ∃ stop, Matches (.many set) ⟨before, text, offset⟩ stop [] ∧ next stop = some result := by
  induction text generalizing before offset with
  | nil => exact ⟨_, .ends, found⟩
  | cons c rest ih =>
    rw [runMany] at found
    split_ifs at found with member
    · split at found
      · rename_i longer
        obtain rfl := Option.some.inj found
        obtain ⟨stop, later, continued⟩ := ih longer
        exact ⟨stop, .more member later, continued⟩
      · exact ⟨_, .ends, found⟩
    · exact ⟨_, .ends, found⟩

/-- What running a pattern finds is a match, followed by what comes after the pattern. -/
theorem matches_of_run {pattern : Pattern} {next : Cursor → List Capture → Option β}
    {cursor : Cursor} {captures : List Capture}
    (found : pattern.run next cursor captures = some result) :
    ∃ stop added, Matches pattern cursor stop added ∧
      next stop (captures ++ added) = some result := by
  induction pattern generalizing next cursor captures with
  | nothing => exact ⟨cursor, [], .nothing, by simpa [run] using found⟩
  | one set =>
    obtain ⟨before, text, offset⟩ := cursor
    cases text with
    | nil => contradiction
    | cons c rest =>
      simp only [run] at found
      split_ifs at found with member
      exact ⟨_, [], .one member, by simpa using found⟩
  | many set =>
    obtain ⟨before, text, offset⟩ := cursor
    obtain ⟨stop, matched, continued⟩ := matches_of_runMany found
    exact ⟨stop, [], matched, by simpa using continued⟩
  | lineStart =>
    simp only [run] at found
    split_ifs at found with starts
    exact ⟨cursor, [], .lineStart starts, by simpa using found⟩
  | wordEdge =>
    simp only [run] at found
    split_ifs at found with edge
    exact ⟨cursor, [], .wordEdge edge, by simpa using found⟩
  | seq first second headIh tailIh =>
    obtain ⟨middle, early, head, continued⟩ := headIh found
    obtain ⟨stop, late, tail, after⟩ := tailIh continued
    exact ⟨stop, early ++ late, .seq head tail, by rwa [← List.append_assoc]⟩
  | either first second leftIh rightIh =>
    simp only [run] at found
    split at found
    · rename_i chosen
      obtain rfl := Option.some.inj found
      obtain ⟨stop, added, matched, continued⟩ := leftIh chosen
      exact ⟨stop, added, .left matched, continued⟩
    · obtain ⟨stop, added, matched, continued⟩ := rightIh found
      exact ⟨stop, added, .right matched, continued⟩
  | group number body ih =>
    obtain ⟨stop, added, matched, continued⟩ := ih found
    exact ⟨stop, _, .group matched, by rwa [← List.append_assoc]⟩

/-- A match that is reported at a place starts there. -/
theorem matches_of_matchAt? {pattern : Pattern} {cursor : Cursor} {found : Match}
    (reported : pattern.matchAt? cursor = some found) :
    found.start = cursor ∧ Matches pattern found.start found.stop found.captures := by
  obtain ⟨stop, added, matched, same⟩ := matches_of_run reported
  obtain rfl := Option.some.inj same
  exact ⟨rfl, matched⟩

/-- The matches found from a place on are matches, each at a place of the text. -/
theorem matches_of_mem_findAllFrom {pattern : Pattern} {text rest : List Char}
    {resume offset : Nat} {before : Option Char} {found : Match}
    (reads : ReadsAt text offset rest)
    (listed : found ∈ pattern.findAllFrom resume before offset rest) :
    Matches pattern found.start found.stop found.captures ∧
      ReadsAt text found.start.offset found.start.rest := by
  induction rest generalizing resume offset before with
  | nil =>
    rw [findAllFrom] at listed
    split_ifs at listed
    · contradiction
    · obtain ⟨starts, matched⟩ := matches_of_matchAt? (Option.mem_toList.mp listed)
      exact ⟨matched, by rw [starts]; exact reads⟩
  | cons c others ih =>
    rw [findAllFrom] at listed
    split_ifs at listed
    · exact ih reads.next listed
    · split at listed
      · rename_i reported
        rcases List.mem_cons.mp listed with rfl | later
        · obtain ⟨starts, matched⟩ := matches_of_matchAt? reported
          exact ⟨matched, by rw [starts]; exact reads⟩
        · exact ih reads.next later
      · exact ih reads.next listed

/-- The matches found in a text are matches, each at a place of the text. -/
theorem matches_of_mem_findAll {pattern : Pattern} {text : List Char} {found : Match}
    (listed : found ∈ pattern.findAll text) :
    Matches pattern found.start found.stop found.captures ∧
      ReadsAt text found.start.offset found.start.rest :=
  matches_of_mem_findAllFrom (ReadsAt.start text) listed

end Running

section Extent

variable {pattern : Pattern} {start stop : Cursor} {captures : List Capture}

/-- A match takes characters and moves the offset by their bytes. -/
theorem Matches.takes (matched : Matches pattern start stop captures) :
    ∃ taken, start.rest = taken ++ stop.rest ∧
      stop.offset = start.offset + byteLength taken := by
  induction matched with
  | nothing | ends | lineStart | wordEdge => exact ⟨[], rfl, rfl⟩
  | one => exact ⟨[_], rfl, by simp [byteLength]⟩
  | more _ _ ih =>
    obtain ⟨taken, rest, offset⟩ := ih
    refine ⟨_ :: taken, congrArg _ rest, ?_⟩
    rw [offset, byteLength, Nat.add_assoc]
  | seq _ _ headIh tailIh =>
    obtain ⟨early, rest, offset⟩ := headIh
    obtain ⟨late, rest', offset'⟩ := tailIh
    refine ⟨early ++ late, by rw [rest, rest', List.append_assoc], ?_⟩
    rw [offset', offset, byteLength_append, Nat.add_assoc]
  | left _ ih | right _ ih | group _ ih => exact ih

/-- What a match leaves is what the text reads after it. -/
theorem Matches.readsAt (matched : Matches pattern start stop captures) {text : List Char}
    (reads : ReadsAt text start.offset start.rest) : ReadsAt text stop.offset stop.rest := by
  obtain ⟨taken, rest, offset⟩ := matched.takes
  rw [rest] at reads
  rw [offset]
  exact reads.skip

/-- Whether a pattern takes no character. -/
def isIdle : Pattern → Bool
  | nothing | lineStart | wordEdge => true
  | one _ | many _ => false
  | seq first second | either first second => first.isIdle && second.isIdle
  | group _ body => body.isIdle

/-- A pattern whose matches start with a character of a kind. -/
def StartsWith (kind : Char → Bool) : Pattern → Prop
  | one set => ∀ c, set c = true → kind c = true
  | seq first second =>
    first.StartsWith kind ∨ (first.isIdle = true ∧ second.StartsWith kind)
  | either first second => first.StartsWith kind ∧ second.StartsWith kind
  | group _ body => body.StartsWith kind
  | nothing | many _ | lineStart | wordEdge => False

/-- A pattern whose matches have a character of a kind. -/
def Includes (kind : Char → Bool) : Pattern → Prop
  | one set => ∀ c, set c = true → kind c = true
  | seq first second => first.Includes kind ∨ second.Includes kind
  | either first second => first.Includes kind ∧ second.Includes kind
  | group _ body => body.Includes kind
  | nothing | many _ | lineStart | wordEdge => False

/-- An idle pattern takes nothing. -/
theorem Matches.of_isIdle (matched : Matches pattern start stop captures)
    (idle : pattern.isIdle = true) : stop = start := by
  induction matched with
  | nothing | lineStart | wordEdge => rfl
  | one | ends | more => contradiction
  | seq _ _ headIh tailIh =>
    obtain ⟨first, second⟩ := Bool.and_eq_true_iff.mp idle
    rw [tailIh second, headIh first]
  | left _ ih => exact ih (Bool.and_eq_true_iff.mp idle).1
  | right _ ih => exact ih (Bool.and_eq_true_iff.mp idle).2
  | group _ ih => exact ih idle

/-- A pattern that starts with a kind of characters takes one of them first. -/
theorem Matches.head_of_startsWith {kind : Char → Bool}
    (matched : Matches pattern start stop captures) (starts : pattern.StartsWith kind) :
    ∃ c rest, kind c = true ∧ start.rest = c :: rest := by
  induction matched with
  | nothing | ends | more | lineStart | wordEdge => contradiction
  | one member => exact ⟨_, _, starts _ member, rfl⟩
  | seq head _ headIh tailIh =>
    rcases starts with first | ⟨idle, second⟩
    · exact headIh first
    · rw [← head.of_isIdle idle]
      exact tailIh second
  | left _ ih => exact ih starts.1
  | right _ ih => exact ih starts.2
  | group _ ih => exact ih starts

/-- A pattern that includes a kind of characters takes one of them. -/
theorem Matches.mem_of_includes {kind : Char → Bool}
    (matched : Matches pattern start stop captures) (includes : pattern.Includes kind) :
    ∃ taken, start.rest = taken ++ stop.rest ∧ ∃ c ∈ taken, kind c = true := by
  induction matched with
  | nothing | ends | more | lineStart | wordEdge => contradiction
  | one member => exact ⟨[_], rfl, _, List.mem_singleton_self _, includes _ member⟩
  | seq head tail headIh tailIh =>
    rcases includes with first | second
    · obtain ⟨early, rest, c, inside, right⟩ := headIh first
      obtain ⟨late, rest', -⟩ := tail.takes
      refine ⟨early ++ late, by rw [rest, rest', List.append_assoc], c, ?_, right⟩
      exact List.mem_append_left late inside
    · obtain ⟨early, rest, -⟩ := head.takes
      obtain ⟨late, rest', c, inside, right⟩ := tailIh second
      refine ⟨early ++ late, by rw [rest, rest', List.append_assoc], c, ?_, right⟩
      exact List.mem_append_right early inside
  | left _ ih => exact ih includes.1
  | right _ ih => exact ih includes.2
  | group _ ih => exact ih includes

/-- The groups of a pattern with their numbers. -/
@[simp] def groups : Pattern → List (Nat × Pattern)
  | nothing | one _ | many _ | lineStart | wordEdge => []
  | seq first second | either first second => first.groups ++ second.groups
  | group number body => body.groups ++ [(number, body)]

/-- What is recorded under a number is what the body of a group with that number matches at a place
of the text. -/
theorem Matches.of_mem_captures (matched : Matches pattern start stop captures)
    {capture : Capture} (listed : capture ∈ captures) {text : List Char}
    (reads : ReadsAt text start.offset start.rest) :
    ∃ body entry leave inner, (capture.group, body) ∈ pattern.groups ∧
      Matches body entry leave inner ∧ capture.start = entry.offset ∧
      ReadsAt text entry.offset entry.rest := by
  induction matched with
  | nothing | one | ends | lineStart | wordEdge => contradiction
  | more _ later ih => exact ih listed reads.next
  | seq head _ headIh tailIh =>
    rcases List.mem_append.mp listed with early | late
    · obtain ⟨body, entry, leave, inner, grouped, rest⟩ := headIh early reads
      exact ⟨body, entry, leave, inner, List.mem_append_left _ grouped, rest⟩
    · obtain ⟨body, entry, leave, inner, grouped, rest⟩ := tailIh late (head.readsAt reads)
      exact ⟨body, entry, leave, inner, List.mem_append_right _ grouped, rest⟩
  | left _ ih =>
    obtain ⟨body, entry, leave, inner, grouped, rest⟩ := ih listed reads
    exact ⟨body, entry, leave, inner, List.mem_append_left _ grouped, rest⟩
  | right _ ih =>
    obtain ⟨body, entry, leave, inner, grouped, rest⟩ := ih listed reads
    exact ⟨body, entry, leave, inner, List.mem_append_right _ grouped, rest⟩
  | group inside ih =>
    rcases List.mem_append.mp listed with within | own
    · obtain ⟨body, entry, leave, inner, grouped, rest⟩ := ih within reads
      exact ⟨body, entry, leave, inner, List.mem_append_left _ grouped, rest⟩
    · obtain rfl := List.mem_singleton.mp own
      refine ⟨_, _, _, _, ?_, inside, rfl, reads⟩
      exact List.mem_append_right _ (List.mem_singleton_self _)

end Extent

section Found

variable {pattern : Pattern} {text : List Char} {found : Match} {kind : Char → Bool}

/-- Where a match starts, a character stands with which its pattern can start. -/
theorem readsAt_start (listed : found ∈ pattern.findAll text)
    (starts : pattern.StartsWith kind) :
    ∃ c rest, kind c = true ∧ ReadsAt text found.start.offset (c :: rest) := by
  obtain ⟨matched, reads⟩ := matches_of_mem_findAll listed
  obtain ⟨c, rest, right, split⟩ := matched.head_of_startsWith starts
  exact ⟨c, rest, right, split ▸ reads⟩

/-- Where a group starts, a character stands with which its body can start. -/
theorem readsAt_group {number : Nat} {capture : Capture} (listed : found ∈ pattern.findAll text)
    (recorded : found.group? number = some capture)
    (starts : ∀ body, (number, body) ∈ pattern.groups → body.StartsWith kind) :
    ∃ c rest, kind c = true ∧ ReadsAt text capture.start (c :: rest) := by
  obtain ⟨matched, reads⟩ := matches_of_mem_findAll listed
  have own : capture.group = number := by simpa using List.find?_some recorded
  obtain ⟨body, entry, leave, inner, grouped, within, place, there⟩ :=
    matched.of_mem_captures (List.mem_of_find?_eq_some recorded) reads
  rw [own] at grouped
  obtain ⟨c, rest, right, split⟩ := within.head_of_startsWith (starts body grouped)
  rw [place]
  exact ⟨c, rest, right, split ▸ there⟩

/-- Behind what is passed over at the start of a match, a character of the match stands, as long as
the match has a character that is not passed over. -/
theorem readsAt_afterLead (passed : Char → Bool) (listed : found ∈ pattern.findAll text)
    (includes : pattern.Includes kind) (apart : ∀ c, kind c = true → passed c = false) :
    ∃ c rest, passed c = false ∧
      ReadsAt text (found.start.offset + byteLength (found.text.takeWhile passed))
        (c :: rest) := by
  obtain ⟨matched, reads⟩ := matches_of_mem_findAll listed
  obtain ⟨taken, split, other, inside, right⟩ := matched.mem_of_includes includes
  have whole : found.text = taken := by
    rw [Match.text, split, List.length_append, Nat.add_sub_cancel, List.take_left]
  rw [split] at reads
  rw [whole]
  exact reads.afterLead passed inside (apart other right)

end Found

section Words

variable {kind : Char → Bool}

/-- A blank is its own folding, so it does not start a name. -/
theorem isBlank_of_isNameStart {c : Char} (starts : isNameStart c = true) : isBlank c = false := by
  by_contra blank
  rw [Bool.not_eq_false] at blank
  have values : c.toNat ≤ 0x20 ∨ (0x85 ≤ c.toNat ∧ c.toNat ≠ 0x17F ∧ c.toNat ≠ 0x212A) := by
    simp only [isBlank, Bool.or_eq_true, Bool.and_eq_true, decide_eq_true_eq, beq_iff_eq] at blank
    omega
  have same : fold c = c := by
    have noLongS : c ≠ longS := by
      rintro rfl
      exact absurd blank (by decide)
    have noKelvin : c ≠ kelvinSign := by
      rintro rfl
      exact absurd blank (by decide)
    have noCapital : ¬ ('A' ≤ c ∧ c ≤ 'Z') := by
      rintro ⟨low, high⟩
      have low' : 65 ≤ c.toNat := low
      have high' : c.toNat ≤ 90 := high
      omega
    rw [fold, if_neg noLongS, if_neg noKelvin, lower, if_neg noCapital]
  rw [isNameStart, same, Bool.or_eq_true, beq_iff_eq] at starts
  rcases starts with letter | rfl
  · simp only [isAsciiLetter, Bool.or_eq_true, Bool.and_eq_true, decide_eq_true_eq] at letter
    rcases letter with ⟨low, high⟩ | ⟨low, high⟩
    · have low' : 97 ≤ c.toNat := low
      have high' : c.toNat ≤ 122 := high
      omega
    · have low' : 65 ≤ c.toNat := low
      have high' : c.toNat ≤ 90 := high
      omega
  · exact absurd blank (by decide)

/-- A name starts with what names start with. -/
theorem startsWith_name : name.StartsWith isNameStart := Or.inl fun _ starts => starts

/-- A choice starts with what each of its patterns starts with. -/
theorem startsWith_oneOf {patterns : List Pattern}
    (each : ∀ pattern ∈ patterns, pattern.StartsWith kind) : (oneOf patterns).StartsWith kind := by
  fun_induction oneOf patterns with
  | case1 => exact fun _ none => absurd none (by simp)
  | case2 pattern => exact each pattern (List.mem_singleton_self pattern)
  | case3 pattern patterns _ ih =>
    exact ⟨each pattern List.mem_cons_self, ih fun other listed =>
      each other (List.mem_cons_of_mem pattern listed)⟩

/-- A word starts with its first letter, up to folding. -/
theorem startsWith_word {text : String}
    (first : (text.toList.head?.any fun letter => isAsciiLetter (fold letter)) = true) :
    (word text).StartsWith isNameStart := by
  obtain ⟨letter, starts, ascii⟩ := (Option.any_eq_true _ _).mp first
  have folded : (one fun c => fold c == fold letter).StartsWith isNameStart := by
    intro c same
    rw [isNameStart, beq_iff_eq.mp same, ascii, Bool.true_or]
  obtain ⟨rest, split⟩ := List.head?_eq_some_iff.mp starts
  rw [word, split, List.map_cons]
  cases rest with
  | nil => exact folded
  | cons second others => exact Or.inl folded

/-- A choice of words starts with a letter when each of them does. -/
theorem startsWith_words (texts : List String)
    (each : ∀ text ∈ texts,
      (text.toList.head?.any fun letter => isAsciiLetter (fold letter)) = true) :
    (oneOf (texts.map word)).StartsWith isNameStart := by
  apply startsWith_oneOf
  intro pattern listed
  obtain ⟨text, among, rfl⟩ := List.mem_map.mp listed
  exact startsWith_word (each text among)

/-- A pattern includes what it starts with. -/
theorem includes_of_startsWith {pattern : Pattern} (starts : pattern.StartsWith kind) :
    pattern.Includes kind := by
  induction pattern with
  | nothing | many | lineStart | wordEdge => contradiction
  | one => exact starts
  | seq first second headIh tailIh =>
    rcases starts with early | ⟨-, late⟩
    · exact Or.inl (headIh early)
    · exact Or.inr (tailIh late)
  | either first second leftIh rightIh => exact ⟨leftIh starts.1, rightIh starts.2⟩
  | group number body ih => exact ih starts

/-- Patterns one after another have what one of them has. -/
theorem includes_all {patterns : List Pattern} (pattern : Pattern) (listed : pattern ∈ patterns)
    (includes : pattern.Includes kind) : (all patterns).Includes kind := by
  fun_induction all patterns with
  | case1 => contradiction
  | case2 only => rwa [← List.mem_singleton.mp listed]
  | case3 first others _ ih =>
    rcases List.mem_cons.mp listed with rfl | later
    · exact Or.inl includes
    · exact Or.inr (ih later)

/-- The groups of patterns in a row are those of each. -/
@[simp] theorem groups_all (patterns : List Pattern) :
    (all patterns).groups = patterns.flatMap groups := by
  fun_induction all patterns with
  | case1 => rfl
  | case2 only => simp
  | case3 first others _ ih => simp [ih]

/-- The groups of a choice are those of each. -/
@[simp] theorem groups_oneOf (patterns : List Pattern) :
    (oneOf patterns).groups = patterns.flatMap groups := by
  fun_induction oneOf patterns with
  | case1 => rfl
  | case2 only => simp
  | case3 first others _ ih => simp [ih]

/-- A word has no groups. -/
@[simp] theorem groups_word (text : String) : (word text).groups = [] := by
  simp [word]

/-- The groups of an optional pattern are those of the pattern. -/
@[simp] theorem groups_optional (pattern : Pattern) :
    (optional pattern).groups = pattern.groups := by
  simp [optional]

/-- A repeated set has no groups. -/
@[simp] theorem groups_some1 (set : Char → Bool) : (some1 set).groups = [] := rfl

/-- Blanks have no groups. -/
@[simp] theorem groups_blanks : blanks.groups = [] := rfl

/-- Blanks of which there is one at least have no groups. -/
@[simp] theorem groups_blanks1 : blanks1.groups = [] := rfl

/-- A name has no groups. -/
@[simp] theorem groups_name : name.groups = [] := rfl

/-- A character has no groups. -/
@[simp] theorem groups_char (expected : Char) : (char expected).groups = [] := rfl

end Words

end CfmlTidy.Text.Pattern
