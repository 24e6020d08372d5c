import ThemeLint.Accessor
import ThemeLint.Proofs.Bytes

namespace ThemeLint.Accessors

open Bytes

variable {accessors : Accessors}

-- The start of an accessor's call up to its fallback, as the pattern for it reads from
-- left to right: the name of the accessor, which no longer word ends with, a parenthesis,
-- the quoted name of a token, a comma, and perhaps the quote that opens the fallback.
-- Blanks may stand before and behind the token's name and behind the comma.
structure FallbackStart (accessors : Accessors) where
  before : Bytes
  name : Bytes
  blanks : Bytes
  opening : UInt8
  token : Bytes
  closing : UInt8
  blanksBehindToken : Bytes
  blanksBehindComma : Bytes
  quote : Option UInt8
  -- the last byte of a character outside ASCII is no byte of a word either
  not_isWord : ∀ b ∈ before.getLast?, isWord b = false
  name_mem : name ∈ accessors.names
  isBlank_blanks : ∀ b ∈ blanks, isBlank b = true
  isQuote_opening : isQuote opening = true
  token_ne_nil : token ≠ []
  isTokenByte_token : ∀ b ∈ token, isTokenByte b = true
  isQuote_closing : isQuote closing = true
  isBlank_behindToken : ∀ b ∈ blanksBehindToken, isBlank b = true
  isBlank_behindComma : ∀ b ∈ blanksBehindComma, isBlank b = true
  isQuote_quote : ∀ b ∈ quote, isQuote b = true

namespace FallbackStart

def arguments (start : FallbackStart accessors) : Bytes :=
  start.blanks ++ start.opening :: start.token ++ start.closing :: start.blanksBehindToken ++
    byte ',' :: start.blanksBehindComma ++ start.quote.toList

def text (start : FallbackStart accessors) : Bytes :=
  start.before ++ start.name ++ byte '(' :: start.arguments

end FallbackStart

theorem isTokenByte_of_isQuote {b : UInt8} (h : isQuote b = true) : isTokenByte b = false := by
  rcases eq_of_isQuote h with rfl | rfl | rfl <;> decide

theorem isQuote_of_isBlank {b : UInt8} (h : isBlank b = true) : isQuote b = false := by
  rw [Bool.eq_false_iff]
  intro hquote
  simp [isBlank_of_isQuote hquote] at h

theorem isWord_of_isIdentifier {name : Bytes} (h : Bytes.isIdentifier name = true) :
    name ≠ [] ∧ ∀ b ∈ name, isWord b = true := by
  cases name with
  | nil => simp [Bytes.isIdentifier] at h
  | cons first rest =>
      simp only [Bytes.isIdentifier, Bool.and_eq_true, List.all_eq_true] at h
      have hfirst : isWord first = true := by
        have hstart := h.1
        simp only [isWordStart, Bool.or_eq_true] at hstart
        rcases hstart with (hletter | hunderscore) | hdollar
        · simp [isWord, isPlainWord, hletter]
        · simp [isWord, isPlainWord, hunderscore]
        · simp [isWord, hdollar]
      exact ⟨by simp, List.forall_mem_cons.mpr ⟨hfirst, h.2⟩⟩

theorem takeWhile_word {name before : Bytes} (hname : ∀ b ∈ name, isWord b = true)
    (hbefore : ∀ b ∈ before.getLast?, isWord b = false) :
    (name.reverse ++ before.reverse).takeWhile isWord = name.reverse := by
  apply takeWhile_append_stop
  · simpa using hname
  · rwa [List.head?_reverse]

theorem identifierBefore_eq {before name spaces : Bytes} (hne : name ≠ [])
    (hname : ∀ b ∈ name, isWord b = true) (hbefore : ∀ b ∈ before.getLast?, isWord b = false)
    (hspaces : ∀ b ∈ spaces, b = space) : identifierBefore (before ++ name ++ spaces) = name := by
  have hreverse : (before ++ name ++ spaces).reverse =
      spaces.reverse ++ (name.reverse ++ before.reverse) := by simp
  have hdrop : (spaces.reverse ++ (name.reverse ++ before.reverse)).dropWhile (· == space) =
      name.reverse ++ before.reverse := by
    apply dropWhile_append_stop
    · simpa using hspaces
    · intro b hb
      obtain ⟨last, others, hlast⟩ := List.exists_cons_of_ne_nil (List.reverse_ne_nil_iff.mpr hne)
      obtain rfl : last = b := by simpa [hlast] using hb
      have hword : isWord last = true := hname last (List.mem_reverse.mp (by simp [hlast]))
      rw [beq_eq_false_iff_ne]
      rintro rfl
      revert hword
      decide
  rw [identifierBefore, nameBehind, hreverse, hdrop, takeWhile_word hname hbefore,
    List.reverse_reverse]

namespace FallbackStart

theorem isWord_name (start : FallbackStart accessors) :
    start.name ≠ [] ∧ ∀ b ∈ start.name, isWord b = true :=
  isWord_of_isIdentifier (accessors.isIdentifier start.name start.name_mem)

theorem nameBehind_eq (start : FallbackStart accessors) :
    nameBehind (start.name.reverse ++ start.before.reverse) = start.name := by
  have hname := identifierBefore_eq start.isWord_name.1 start.isWord_name.2 start.not_isWord
    (fun _ hmem => absurd hmem List.not_mem_nil)
  rwa [List.append_nil, identifierBefore, List.reverse_append] at hname

theorem reverse_text (start : FallbackStart accessors) :
    start.text.reverse = start.quote.toList ++ (start.blanksBehindComma.reverse ++
      byte ',' :: (start.blanksBehindToken.reverse ++ start.closing :: (start.token.reverse ++
        start.opening :: (start.blanks.reverse ++
          byte '(' :: (start.name.reverse ++ start.before.reverse))))) := by
  have hquote : start.quote.toList.reverse = start.quote.toList := by cases start.quote <;> rfl
  simp [text, arguments, hquote]

end FallbackStart

-- One step of reading a text from its end: past a run of bytes, to a mark that ends the
-- run, and on with what is in front of the mark.
def pastRun (inRun isMark : UInt8 → Bool) (goesOn : Bytes → Bool) (reversed : Bytes) : Bool :=
  match reversed.dropWhile inRun with
  | mark :: rest => isMark mark && goesOn rest
  | [] => false

theorem pastRun_iff {inRun isMark : UInt8 → Bool} {goesOn : Bytes → Bool} {reversed : Bytes}
    (hmark : ∀ b, isMark b = true → inRun b = false) :
    pastRun inRun isMark goesOn reversed = true ↔
      ∃ run mark rest, reversed = run ++ mark :: rest ∧ (∀ b ∈ run, inRun b = true) ∧
        isMark mark = true ∧ goesOn rest = true := by
  constructor
  · intro h
    unfold pastRun at h
    split at h
    · rename_i mark rest hdrop
      obtain ⟨hcut, hrun, _⟩ := cut inRun reversed
      rw [hdrop] at hcut
      rw [Bool.and_eq_true] at h
      exact ⟨reversed.takeWhile inRun, mark, rest, hcut, hrun, h⟩
    · simp at h
  · rintro ⟨run, mark, rest, rfl, hrun, hisMark, hrest⟩
    have hdrop : (run ++ mark :: rest).dropWhile inRun = mark :: rest :=
      dropWhile_append_stop hrun (by simpa using hmark mark hisMark)
    simp [pastRun, hdrop, hisMark, hrest]

def withoutQuote : Bytes → Bytes
  | q :: rest => if isQuote q then rest else q :: rest
  | [] => []

theorem withoutQuote_append {quote : Option UInt8} {rest : Bytes}
    (hquote : ∀ b ∈ quote, isQuote b = true) (hrest : ∀ b ∈ rest.head?, isQuote b = false) :
    withoutQuote (quote.toList ++ rest) = rest := by
  cases quote with
  | some q => simp [withoutQuote, hquote q rfl]
  | none =>
      cases rest with
      | nil => rfl
      | cons b rest => simp [withoutQuote, hrest b rfl]

theorem eq_quote_append_withoutQuote (reversed : Bytes) :
    ∃ quote : Option UInt8, (∀ b ∈ quote, isQuote b = true) ∧
      reversed = quote.toList ++ withoutQuote reversed := by
  cases reversed with
  | nil => exact ⟨none, by simp, rfl⟩
  | cons b rest =>
      by_cases hb : isQuote b = true
      · exact ⟨some b, by simpa using hb, by simp [withoutQuote, hb]⟩
      · exact ⟨none, by simp, by simp [withoutQuote, hb]⟩

def endsInName (accessors : Accessors) (reversed : Bytes) : Bool :=
  accessors.names.contains (reversed.takeWhile isWord).reverse

def endsInCall (accessors : Accessors) : Bytes → Bool :=
  pastRun isBlank (· == byte '(') accessors.endsInName

def endsInToken (accessors : Accessors) (reversed : Bytes) : Bool :=
  reversed.head?.any isTokenByte && pastRun isTokenByte isQuote accessors.endsInCall reversed

theorem endsInFallback_eq (accessors : Accessors) (text : Bytes) :
    accessors.endsInFallback text =
      pastRun isBlank (· == byte ',') (pastRun isBlank isQuote accessors.endsInToken)
        (withoutQuote text.reverse) := by
  have hargument : (match text.reverse with
      | q :: rest => if isQuote q then rest else text.reverse
      | [] => []) = withoutQuote text.reverse := by
    cases text.reverse <;> rfl
  have hfallback := endsInFallback.eq_1 accessors text
  simp only [Bool.and_assoc] at hfallback
  rw [← hargument]
  exact hfallback

theorem endsInName_iff {reversed : Bytes} :
    accessors.endsInName reversed = true ↔
      ∃ name before : Bytes, reversed = name.reverse ++ before.reverse ∧ name ∈ accessors.names ∧
        ∀ b ∈ before.getLast?, isWord b = false := by
  constructor
  · intro h
    obtain ⟨hcut, _, hstop⟩ := cut isWord reversed
    refine ⟨(reversed.takeWhile isWord).reverse, (reversed.dropWhile isWord).reverse, ?_, ?_, ?_⟩
    · rwa [List.reverse_reverse, List.reverse_reverse]
    · simpa [endsInName] using h
    · rwa [List.getLast?_reverse]
  · rintro ⟨name, before, rfl, hname, hbefore⟩
    have hword := (isWord_of_isIdentifier (accessors.isIdentifier name hname)).2
    rw [endsInName, takeWhile_word hword hbefore, List.reverse_reverse]
    simpa using hname

theorem not_isBlank_comma {b : UInt8} (h : (b == byte ',') = true) : isBlank b = false := by
  rw [eq_of_beq h]
  decide

theorem not_isBlank_parenthesis {b : UInt8} (h : (b == byte '(') = true) : isBlank b = false := by
  rw [eq_of_beq h]
  decide

-- What is read from the end is a start of a call: the runs and the marks between them are
-- its parts, from the last to the first.
theorem exists_fallbackStart {text : Bytes} (h : accessors.endsInFallback text = true) :
    ∃ start : FallbackStart accessors, start.text = text := by
  rw [endsInFallback_eq] at h
  obtain ⟨quote, hquote, htext⟩ := eq_quote_append_withoutQuote text.reverse
  obtain ⟨behindComma, comma, rest, hargument, hbehindComma, hcomma, h⟩ :=
    (pastRun_iff fun _ => not_isBlank_comma).mp h
  obtain ⟨behindToken, closing, rest, rfl, hbehindToken, hclosing, h⟩ :=
    (pastRun_iff fun _ => isBlank_of_isQuote).mp h
  rw [endsInToken, Bool.and_eq_true] at h
  obtain ⟨hsome, h⟩ := h
  obtain ⟨token, opening, rest, rfl, htoken, hopening, h⟩ :=
    (pastRun_iff fun _ => isTokenByte_of_isQuote).mp h
  obtain ⟨blanks, parenthesis, rest, rfl, hblanks, hparenthesis, h⟩ :=
    (pastRun_iff fun _ => not_isBlank_parenthesis).mp h
  obtain ⟨name, before, rfl, hname, hbefore⟩ := endsInName_iff.mp h
  have hne : token ≠ [] := by
    rintro rfl
    simp [isTokenByte_of_isQuote hopening] at hsome
  let start : FallbackStart accessors :=
    { before, name, blanks := blanks.reverse, opening, token := token.reverse, closing,
      blanksBehindToken := behindToken.reverse, blanksBehindComma := behindComma.reverse, quote,
      not_isWord := hbefore
      name_mem := hname
      isBlank_blanks := by simpa using hblanks
      isQuote_opening := hopening
      token_ne_nil := by simpa using hne
      isTokenByte_token := by simpa using htoken
      isQuote_closing := hclosing
      isBlank_behindToken := by simpa using hbehindToken
      isBlank_behindComma := by simpa using hbehindComma
      isQuote_quote := hquote }
  refine ⟨start, List.reverse_inj.mp ?_⟩
  rw [start.reverse_text, htext, hargument, eq_of_beq hcomma, eq_of_beq hparenthesis]
  simp [start]

-- Every start of a call is read from the end: no run is longer than the pattern asks for,
-- since the mark that ends it is no byte of the run.
theorem FallbackStart.endsInFallback_text (start : FallbackStart accessors) :
    accessors.endsInFallback start.text = true := by
  have hname : accessors.endsInName (start.name.reverse ++ start.before.reverse) = true :=
    endsInName_iff.mpr ⟨_, _, rfl, start.name_mem, start.not_isWord⟩
  have hcall : accessors.endsInCall (start.blanks.reverse ++ _) = true :=
    (pastRun_iff fun _ => not_isBlank_parenthesis).mpr ⟨_, byte '(', _, rfl,
      by simpa using start.isBlank_blanks, beq_self_eq_true _, hname⟩
  have htoken : pastRun isTokenByte isQuote accessors.endsInCall (start.token.reverse ++ _) = true :=
    (pastRun_iff fun _ => isTokenByte_of_isQuote).mpr ⟨_, start.opening, _, rfl,
      by simpa using start.isTokenByte_token, start.isQuote_opening, hcall⟩
  have hsome : (start.token.reverse ++ start.opening :: (start.blanks.reverse ++
      byte '(' :: (start.name.reverse ++ start.before.reverse))).head?.any isTokenByte = true := by
    cases htoken : start.token.reverse with
    | nil => exact absurd (List.reverse_eq_nil_iff.mp htoken) start.token_ne_nil
    | cons b others =>
        have hb : b ∈ start.token := List.mem_reverse.mp (by simp [htoken])
        simpa using start.isTokenByte_token b hb
  have hclosing : pastRun isBlank isQuote accessors.endsInToken
      (start.blanksBehindToken.reverse ++ _) = true :=
    (pastRun_iff fun _ => isBlank_of_isQuote).mpr ⟨_, start.closing, _, rfl,
      by simpa using start.isBlank_behindToken, start.isQuote_closing,
      Bool.and_eq_true_iff.mpr ⟨hsome, htoken⟩⟩
  rw [endsInFallback_eq, start.reverse_text, withoutQuote_append start.isQuote_quote]
  · exact (pastRun_iff fun _ => not_isBlank_comma).mpr ⟨_, byte ',', _, rfl,
      by simpa using start.isBlank_behindComma, beq_self_eq_true _, hclosing⟩
  · intro b hb
    cases hblanks : start.blanksBehindComma.reverse with
    | nil =>
        obtain rfl : byte ',' = b := by simpa [hblanks] using hb
        decide
    | cons first others =>
        obtain rfl : first = b := by simpa [hblanks] using hb
        have hfirst : first ∈ start.blanksBehindComma := List.mem_reverse.mp (by simp [hblanks])
        exact isQuote_of_isBlank (start.isBlank_behindComma first hfirst)

theorem opensCall_cons {b : UInt8} {rest : Bytes} :
    accessors.opensCall (b :: rest) = true ↔
      b ≠ byte ')' ∧ (b = byte '(' ∧ nameBehind rest ∈ accessors.names ∨
        accessors.opensCall rest = true) := by
  by_cases hclosing : b = byte ')'
  · simp [opensCall, hclosing]
  · simp only [opensCall, beq_iff_eq, hclosing, if_false, Bool.if_true_left, Bool.or_eq_true,
      decide_eq_true_eq, Bool.and_eq_true, List.contains_iff_mem, ne_eq, not_false_eq_true,
      true_and]

-- Bytes that close nothing may follow a call that is open.
theorem opensCall_append {run rest : Bytes} (hrun : byte ')' ∉ run)
    (h : accessors.opensCall rest = true) : accessors.opensCall (run ++ rest) = true := by
  induction run with
  | nil => exact h
  | cons b run ih =>
      obtain ⟨hb, hrun⟩ := List.ne_and_not_mem_of_not_mem_cons hrun
      exact opensCall_cons.mpr ⟨Ne.symm hb, .inr (ih hrun)⟩

-- Nothing in the pattern closes a parenthesis behind the one that it opens.
theorem FallbackStart.closing_notMem_arguments (start : FallbackStart accessors) :
    byte ')' ∉ start.arguments := by
  have hblanks : ∀ blanks : Bytes, (∀ b ∈ blanks, isBlank b = true) → byte ')' ∉ blanks :=
    fun _ hall hmem => absurd (hall _ hmem) (by decide)
  have hquotes : ∀ q, isQuote q = true → byte ')' ≠ q := by
    rintro q hq rfl
    exact absurd hq (by decide)
  have htoken : byte ')' ∉ start.token :=
    fun hmem => absurd (start.isTokenByte_token _ hmem) (by decide)
  have hcomma : byte ')' ≠ byte ',' := by decide
  have hquote : start.quote ≠ some (byte ')') :=
    fun hsome => absurd (start.isQuote_quote _ hsome) (by decide)
  simp [arguments, hblanks _ start.isBlank_blanks, hblanks _ start.isBlank_behindToken,
    hblanks _ start.isBlank_behindComma, hquotes _ start.isQuote_opening,
    hquotes _ start.isQuote_closing, htoken, hcomma, hquote]

theorem FallbackStart.insideOpenCall_text (start : FallbackStart accessors) :
    accessors.insideOpenCall start.text = true := by
  have hopen : accessors.opensCall
      (byte '(' :: (start.name.reverse ++ start.before.reverse)) = true := by
    have hnot : (byte '(' == byte ')') = false := by decide
    simp [opensCall, hnot, start.nameBehind_eq, start.name_mem]
  have hreverse : start.text.reverse =
      start.arguments.reverse ++ byte '(' :: (start.name.reverse ++ start.before.reverse) := by
    simp [text]
  rw [insideOpenCall, hreverse]
  exact opensCall_append (by simpa using start.closing_notMem_arguments) hopen

-- The pattern never decides: a match is an argument of an accessor's call exactly if the
-- line before it ends inside the parentheses of such a call. The pattern, wherever it ends
-- a text, ends it inside such parentheses.
theorem isFallback_iff (accessors : Accessors) (line : Bytes) (column : Int) :
    (accessors.isFallback line column = true ↔
      0 < column ∧ column ≤ line.length ∧
        accessors.insideOpenCall (line.take column.toNat) = true) ∧
    ∀ text, (accessors.endsInFallback text = true ↔
        ∃ start : FallbackStart accessors, start.text = text) ∧
      (accessors.endsInFallback text = true → accessors.insideOpenCall text = true) := by
  have hpattern : ∀ text, accessors.endsInFallback text = true →
      accessors.insideOpenCall text = true := by
    intro text h
    obtain ⟨start, rfl⟩ := exists_fallbackStart h
    exact start.insideOpenCall_text
  refine ⟨?_, fun text => ⟨⟨exists_fallbackStart, ?_⟩, hpattern text⟩⟩
  · by_cases hcolumn : 0 < column ∧ column ≤ line.length
    · have hinside : (decide (column ≤ 0) || decide (column > line.length)) = false := by
        simpa using hcolumn
      simp only [isFallback, hinside, Bool.false_eq_true, if_false, Bool.or_eq_true, hcolumn,
        true_and]
      exact ⟨fun h => h.elim (hpattern _) id, Or.inr⟩
    · have houtside : (decide (column ≤ 0) || decide (column > line.length)) = true := by
        simp only [Bool.or_eq_true, decide_eq_true_eq]
        omega
      simp only [isFallback, houtside, if_true, Bool.false_eq_true, false_iff]
      exact fun h => hcolumn ⟨h.1, h.2.1⟩
  · rintro ⟨start, rfl⟩
    exact start.endsInFallback_text

end ThemeLint.Accessors
