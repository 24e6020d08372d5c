import ThemeLint.Proofs.Match.Chain
import ThemeLint.Proofs.ThemeVariable.Coverage
import Mathlib.Computability.Language

namespace ThemeLint.ThemeVariable

open Bytes
open scoped Computability

-- The parts of an assignment to a style property, from left to right. The quoted string
-- reaches to the nearest equal quote, and a reference to a theme variable starts in it.
structure Assignment where
  first : UInt8
  name : Bytes
  blanksBefore : Bytes
  blanksBehind : Bytes
  quote : UInt8
  body : Bytes
  isWordStart_first : isWordStart first = true
  isWord_name : ∀ b ∈ name, isWord b = true
  isBlank_before : ∀ b ∈ blanksBefore, isBlank b = true
  isBlank_behind : ∀ b ∈ blanksBehind, isBlank b = true
  isQuote_quote : isQuote quote = true
  quote_notMem : quote ∉ body
  mentions : ∃ offset name, ReferenceAt body offset name

def Assignment.text (a : Assignment) : Bytes :=
  utf8 ".style." ++ a.first :: a.name ++ (a.blanksBefore ++ byte '=' :: a.blanksBehind ++
    (a.quote :: a.body ++ [a.quote]))

def IsAssignment (found : Bytes) : Prop := ∃ a : Assignment, a.text = found

def AssignmentAt (text : Bytes) : Match → Prop := Match.Stands (fun _ found _ => IsAssignment found) text

theorem mentions_iff {body : Bytes} :
    mentions body = true ↔ ∃ offset name, ReferenceAt body offset name := by
  induction body with
  | nil =>
      have hnone : ¬∃ offset name, ReferenceAt [] offset name := by
        rintro ⟨offset, name, href⟩
        have hlen := href.written.length_le
        simp at hlen
      simp [mentions, hnone]
  | cons b rest ih =>
      rw [mentions, Bool.or_eq_true, ih]
      constructor
      · rintro (hsome | ⟨offset, name, href⟩)
        · obtain ⟨behind, hbehind⟩ := Option.isSome_iff_exists.mp hsome
          obtain ⟨htext, c, tail, rfl, hc⟩ := nameAfter?_eq_some.mp hbehind
          refine ⟨0, [c], by simp, by simpa using hc, ?_⟩
          rw [List.drop_zero, htext]
          exact ⟨tail, by simp [spelling]⟩
        · exact ⟨offset + 1, name, href.name_ne_nil, href.isName, href.written⟩
      · rintro ⟨offset, name, href⟩
        cases offset with
        | zero =>
            obtain ⟨behind, hbehind⟩ := href.nameAfter?
            exact .inl (Option.isSome_iff_exists.mpr ⟨behind, hbehind⟩)
        | succ offset => exact .inr ⟨offset, name, href.name_ne_nil, href.isName, href.written⟩

theorem propertyLength?_eq_some {text rest : Bytes} {length : Nat} :
    propertyLength? text = some (length, rest) ↔
      ∃ first name, text = utf8 ".style." ++ first :: name ++ rest ∧ isWordStart first = true ∧
        ((∀ b ∈ name, isWord b = true) ∧ ∀ b ∈ rest.head?, isWord b = false) ∧
        length = 8 + name.length := by
  unfold propertyLength?
  constructor
  · intro h
    split at h
    · rename_i first tail hstart
      rw [Option.ite_none_right_eq_some, Option.some.injEq, Prod.mk.injEq] at h
      obtain ⟨hfirst, rfl, rfl⟩ := h
      obtain ⟨htail, hrun⟩ := cut isWord tail
      refine ⟨first, tail.takeWhile isWord, ?_, hfirst, hrun, rfl⟩
      rw [afterStart?_eq_some.mp hstart, List.append_assoc, List.cons_append, ← htail]
    · simp at h
  · rintro ⟨first, name, rfl, hfirst, hrun, rfl⟩
    have hstart : afterStart? (utf8 ".style.") (utf8 ".style." ++ first :: name ++ rest) =
        some (first :: (name ++ rest)) := afterStart?_eq_some.mpr (by simp)
    obtain ⟨hname, hrest⟩ := eq_of_cut rfl hrun
    simp only [hstart, hfirst, if_true, ← hname, ← hrest]

theorem equalsLength?_eq_some {text rest : Bytes} {length : Nat} :
    equalsLength? text = some (length, rest) ↔
      ∃ before behind, text = before ++ byte '=' :: behind ++ rest ∧
        (∀ b ∈ before, isBlank b = true) ∧
        ((∀ b ∈ behind, isBlank b = true) ∧ ∀ b ∈ rest.head?, isBlank b = false) ∧
        length = before.length + 1 + behind.length := by
  unfold equalsLength?
  constructor
  · intro h
    obtain ⟨htext, hbefore, _⟩ := cut isBlank text
    split at h
    · simp at h
    · rename_i b tail hdrop
      rw [Option.ite_none_right_eq_some, Option.some.injEq, Prod.mk.injEq, beq_iff_eq] at h
      obtain ⟨rfl, rfl, rfl⟩ := h
      obtain ⟨htail, hrun⟩ := cut isBlank tail
      refine ⟨text.takeWhile isBlank, tail.takeWhile isBlank, ?_, hbefore, hrun, rfl⟩
      rwa [List.append_assoc, List.cons_append, ← htail, ← hdrop]
  · rintro ⟨before, behind, rfl, hbefore, hrun, rfl⟩
    have hequals : ∀ b ∈ (byte '=' :: (behind ++ rest)).head?, isBlank b = false := by
      simp only [List.head?_cons, Option.mem_def, Option.some.injEq, forall_eq']
      decide
    have htext : before ++ byte '=' :: behind ++ rest = before ++ byte '=' :: (behind ++ rest) := by
      simp
    obtain ⟨htake, hdrop⟩ := eq_of_cut htext ⟨hbefore, hequals⟩
    obtain ⟨hbehind, hrest⟩ := eq_of_cut rfl hrun
    simp only [← htake, ← hdrop, ← hbehind, ← hrest, beq_self_eq_true, if_true]

theorem quotedBody?_eq_some {text body : Bytes} :
    quotedBody? text = some body ↔
      ∃ quote after, text = quote :: body ++ quote :: after ∧ isQuote quote = true ∧
        quote ∉ body := by
  cases text with
  | nil => simp [quotedBody?]
  | cons q rest =>
      rw [quotedBody?, Option.ite_none_right_eq_some, Option.some.injEq, Bool.and_eq_true,
        List.contains_iff_mem]
      constructor
      · rintro ⟨⟨hquote, hmem⟩, rfl⟩
        obtain ⟨hrest, hbody, hstop⟩ := cut (· != q) rest
        have hnot : q ∉ rest.takeWhile (· != q) := fun hq => by simpa using hbody q hq
        cases hdrop : rest.dropWhile (· != q) with
        | nil =>
            rw [hdrop, List.append_nil] at hrest
            exact absurd (hrest ▸ hmem) hnot
        | cons c after =>
            obtain rfl : c = q := by simpa [hdrop] using hstop
            refine ⟨c, after, ?_, hquote, hnot⟩
            rw [List.cons_append, ← hdrop, ← hrest]
      · rintro ⟨quote, after, htext, hquote, hnot⟩
        obtain ⟨rfl, rfl⟩ := List.cons.inj htext
        refine ⟨⟨hquote, by simp⟩, takeWhile_append_stop (fun b hb => ?_) (by simp)⟩
        rw [bne_iff_ne]
        rintro rfl
        exact hnot hb

namespace Assignment

theorem length_text (a : Assignment) :
    a.text.length = 8 + a.name.length + (a.blanksBefore.length + 1 + a.blanksBehind.length) +
      a.body.length + 2 := by
  have hstyle : (utf8 ".style.").length = 7 := rfl
  simp only [text, List.length_append, List.length_cons, List.length_nil, hstyle]
  omega

-- Each run of bytes ends where the next part starts, so that the parts are found one
-- after the other without going back.
theorem assignmentLength_text (a : Assignment) (after : Bytes) :
    assignmentLength (a.text ++ after) = some a.text.length := by
  have hproperty : propertyLength? (a.text ++ after) = some (8 + a.name.length,
      a.blanksBefore ++ byte '=' :: a.blanksBehind ++ (a.quote :: a.body ++ a.quote :: after)) := by
    refine propertyLength?_eq_some.mpr
      ⟨a.first, a.name, by simp [text], a.isWordStart_first, ⟨a.isWord_name, ?_⟩, rfl⟩
    intro b hb
    cases hblanks : a.blanksBefore with
    | nil =>
        obtain rfl : byte '=' = b := by simpa [hblanks] using hb
        decide
    | cons blank others =>
        obtain rfl : blank = b := by simpa [hblanks] using hb
        exact isWord_of_isBlank (a.isBlank_before blank (by simp [hblanks]))
  have hequals : equalsLength? (a.blanksBefore ++ byte '=' :: a.blanksBehind ++
      (a.quote :: a.body ++ a.quote :: after)) =
      some (a.blanksBefore.length + 1 + a.blanksBehind.length,
        a.quote :: a.body ++ a.quote :: after) := by
    refine equalsLength?_eq_some.mpr
      ⟨a.blanksBefore, a.blanksBehind, rfl, a.isBlank_before, ⟨a.isBlank_behind, ?_⟩, rfl⟩
    simpa using isBlank_of_isQuote a.isQuote_quote
  have hbody : quotedBody? (a.quote :: a.body ++ a.quote :: after) = some a.body :=
    quotedBody?_eq_some.mpr ⟨a.quote, after, rfl, a.isQuote_quote, a.quote_notMem⟩
  have hmentions : ThemeVariable.mentions a.body = true := mentions_iff.mpr a.mentions
  simp only [assignmentLength, hproperty, hequals, hbody, hmentions, bind, Option.bind, if_true,
    a.length_text]

end Assignment

theorem exists_assignment {text : Bytes} {length : Nat} (h : assignmentLength text = some length) :
    ∃ (a : Assignment) (after : Bytes), text = a.text ++ after ∧ a.text.length = length := by
  simp only [assignmentLength, bind, Option.bind_eq_some_iff, Prod.exists,
    Option.ite_none_right_eq_some, Option.some.injEq] at h
  obtain ⟨property, rest, hproperty, equals, value, hequals, body, hbody, hmentions, rfl⟩ := h
  obtain ⟨first, name, rfl, hfirst, ⟨hname, _⟩, rfl⟩ := propertyLength?_eq_some.mp hproperty
  obtain ⟨before, behind, rfl, hbefore, ⟨hbehind, _⟩, rfl⟩ := equalsLength?_eq_some.mp hequals
  obtain ⟨quote, after, rfl, hquote, hnot⟩ := quotedBody?_eq_some.mp hbody
  let a : Assignment :=
    { first, name, blanksBefore := before, blanksBehind := behind, quote, body
      isWordStart_first := hfirst
      isWord_name := hname
      isBlank_before := hbefore
      isBlank_behind := hbehind
      isQuote_quote := hquote
      quote_notMem := hnot
      mentions := mentions_iff.mp hmentions }
  refine ⟨a, after, by simp [a, Assignment.text], ?_⟩
  rw [a.length_text]

theorem assignment_reads : assignment.Reads fun _ found _ => IsAssignment found where
  eq_some_iff before rest length := by
    constructor
    · intro h
      obtain ⟨a, after, hrest, hlength⟩ := exists_assignment h
      exact ⟨a.text, after, hrest, ⟨a, rfl⟩, hlength⟩
    · rintro ⟨_, after, rfl, ⟨a, rfl⟩, rfl⟩
      exact a.assignmentLength_text after
  ne_nil := by
    rintro before _ after ⟨a, rfl⟩ hnil
    have hlength := a.length_text
    rw [hnil] at hlength
    simp at hlength

def oneOf (p : UInt8 → Bool) : Language UInt8 := {word | ∃ b, word = [b] ∧ p b = true}

def propertyExpression : Language UInt8 :=
  {utf8 ".style."} * oneOf isWordStart * (oneOf isWord)∗

def equalsExpression : Language UInt8 := (oneOf isBlank)∗ * {[byte '=']} * (oneOf isBlank)∗

def referenceExpression : Language UInt8 :=
  {utf8 "var(--"} * oneOf isNameByte * (oneOf isNameByte)∗

-- A string between two equal quotes with a reference somewhere in it.
def quotedExpression (quote : UInt8) : Language UInt8 :=
  {[quote]} * (oneOf (· != quote))∗ * referenceExpression * (oneOf (· != quote))∗ * {[quote]}

def assignmentExpression : Language UInt8 :=
  propertyExpression * equalsExpression *
    (quotedExpression 0x27 + quotedExpression 0x22 + quotedExpression 0x60)

theorem mem_written {word found : Bytes} : found ∈ ({word} : Language UInt8) ↔ found = word :=
  Iff.rfl

theorem mem_oneOf {p : UInt8 → Bool} {word : Bytes} :
    word ∈ oneOf p ↔ ∃ b, word = [b] ∧ p b = true := Iff.rfl

theorem mem_kstar_oneOf {p : UInt8 → Bool} {word : Bytes} :
    word ∈ (oneOf p)∗ ↔ ∀ b ∈ word, p b = true := by
  rw [Language.mem_kstar]
  constructor
  · rintro ⟨parts, rfl, hparts⟩ b hb
    obtain ⟨part, hpart, hmem⟩ := List.mem_flatten.mp hb
    obtain ⟨c, rfl, hc⟩ := hparts part hpart
    obtain rfl : b = c := by simpa using hmem
    exact hc
  · intro hall
    refine ⟨word.map ([·]), by simp [← List.flatMap_def], fun part hpart => ?_⟩
    obtain ⟨b, hb, rfl⟩ := List.mem_map.mp hpart
    exact ⟨b, rfl, hall b hb⟩

theorem mem_kstar_ne {quote : UInt8} {word : Bytes} :
    word ∈ (oneOf (· != quote))∗ ↔ quote ∉ word := by
  simp only [mem_kstar_oneOf, bne_iff_ne]
  exact ⟨fun hall hmem => hall quote hmem rfl, fun hnot b hb heq => hnot (heq ▸ hb)⟩

theorem mem_propertyExpression {word : Bytes} :
    word ∈ propertyExpression ↔
      ∃ first name, word = utf8 ".style." ++ first :: name ∧ isWordStart first = true ∧
        ∀ b ∈ name, isWord b = true := by
  simp only [propertyExpression, Language.mem_mul, mem_written, mem_oneOf, mem_kstar_oneOf]
  constructor
  · rintro ⟨_, ⟨_, rfl, _, ⟨first, rfl, hfirst⟩, rfl⟩, name, hname, rfl⟩
    exact ⟨first, name, by simp, hfirst, hname⟩
  · rintro ⟨first, name, rfl, hfirst, hname⟩
    exact ⟨_, ⟨_, rfl, _, ⟨first, rfl, hfirst⟩, rfl⟩, name, hname, by simp⟩

theorem mem_equalsExpression {word : Bytes} :
    word ∈ equalsExpression ↔
      ∃ before behind, word = before ++ byte '=' :: behind ∧ (∀ b ∈ before, isBlank b = true) ∧
        ∀ b ∈ behind, isBlank b = true := by
  simp only [equalsExpression, Language.mem_mul, mem_written, mem_kstar_oneOf]
  constructor
  · rintro ⟨_, ⟨before, hbefore, _, rfl, rfl⟩, behind, hbehind, rfl⟩
    exact ⟨before, behind, by simp, hbefore, hbehind⟩
  · rintro ⟨before, behind, rfl, hbefore, hbehind⟩
    exact ⟨_, ⟨before, hbefore, _, rfl, rfl⟩, behind, hbehind, by simp⟩

theorem mem_referenceExpression {word : Bytes} :
    word ∈ referenceExpression ↔
      ∃ name, word = spelling name ∧ name ≠ [] ∧ ∀ b ∈ name, isNameByte b = true := by
  simp only [referenceExpression, Language.mem_mul, mem_written, mem_oneOf, mem_kstar_oneOf]
  constructor
  · rintro ⟨_, ⟨_, rfl, _, ⟨b, rfl, hb⟩, rfl⟩, name, hname, rfl⟩
    exact ⟨b :: name, by simp [spelling], by simp, List.forall_mem_cons.mpr ⟨hb, hname⟩⟩
  · rintro ⟨name, rfl, hne, hname⟩
    obtain ⟨b, others, rfl⟩ := List.exists_cons_of_ne_nil hne
    obtain ⟨hb, hothers⟩ := List.forall_mem_cons.mp hname
    exact ⟨_, ⟨_, rfl, _, ⟨b, rfl, hb⟩, rfl⟩, others, hothers, by simp [spelling]⟩

-- No byte of a reference is a quote, so that quotes are kept out of the whole body by keeping
-- them out of what stands around the reference.
theorem mem_quotedExpression {quote : UInt8} {word : Bytes} (hquote : isQuote quote = true) :
    word ∈ quotedExpression quote ↔
      ∃ body, word = quote :: body ++ [quote] ∧ quote ∉ body ∧
        ∃ offset name, ReferenceAt body offset name := by
  simp only [quotedExpression, Language.mem_mul, mem_written, mem_kstar_ne, mem_referenceExpression]
  constructor
  · rintro ⟨_, ⟨_, ⟨_, ⟨_, rfl, front, hfront, rfl⟩, _, ⟨name, rfl, hne, hname⟩, rfl⟩, back, hback,
      rfl⟩, _, rfl, rfl⟩
    have href : ReferenceAt (front ++ spelling name ++ back) front.length name :=
      ⟨hne, hname, by simp⟩
    have hnot : quote ∉ spelling name := by
      intro hmem
      have hstop := href.not_isStop quote hmem
      simp [isStop, hquote] at hstop
    exact ⟨_, by simp, by simp [hfront, hnot, hback], front.length, name, href⟩
  · rintro ⟨body, rfl, hnot, offset, name, hne, hname, back, hwritten⟩
    have hbody : body = body.take offset ++ spelling name ++ back := by
      rw [List.append_assoc, hwritten, List.take_append_drop]
    have hfront : quote ∉ body.take offset := fun hmem => hnot (List.mem_of_mem_take hmem)
    have hback : quote ∉ back := fun hmem => hnot (hbody ▸ List.mem_append_right _ hmem)
    refine ⟨_, ⟨_, ⟨_, ⟨_, rfl, _, hfront, rfl⟩, _, ⟨name, rfl, hne, hname⟩, rfl⟩, back, hback,
      rfl⟩, _, rfl, ?_⟩
    conv_rhs => rw [hbody]
    simp

theorem mem_quotedExpressions {word : Bytes} :
    word ∈ quotedExpression 0x27 + quotedExpression 0x22 + quotedExpression 0x60 ↔
      ∃ quote, isQuote quote = true ∧ word ∈ quotedExpression quote := by
  simp only [Language.mem_add]
  constructor
  · rintro ((h | h) | h)
    · exact ⟨0x27, by decide, h⟩
    · exact ⟨0x22, by decide, h⟩
    · exact ⟨0x60, by decide, h⟩
  · rintro ⟨quote, hquote, h⟩
    rcases eq_of_isQuote hquote with rfl | rfl | rfl
    · exact .inl (.inl h)
    · exact .inl (.inr h)
    · exact .inr h

theorem mem_assignmentExpression {word : Bytes} :
    word ∈ assignmentExpression ↔ IsAssignment word := by
  rw [assignmentExpression, Language.mem_mul]
  constructor
  · rintro ⟨_, hleft, value, hvalue, rfl⟩
    obtain ⟨_, hproperty, _, hequals, rfl⟩ := Language.mem_mul.mp hleft
    obtain ⟨first, name, rfl, hfirst, hname⟩ := mem_propertyExpression.mp hproperty
    obtain ⟨before, behind, rfl, hbefore, hbehind⟩ := mem_equalsExpression.mp hequals
    obtain ⟨quote, hquote, hvalue⟩ := mem_quotedExpressions.mp hvalue
    obtain ⟨body, rfl, hnot, hmentions⟩ := (mem_quotedExpression hquote).mp hvalue
    exact ⟨⟨first, name, before, behind, quote, body, hfirst, hname, hbefore, hbehind, hquote,
      hnot, hmentions⟩, by simp [Assignment.text]⟩
  · rintro ⟨a, rfl⟩
    have hproperty := mem_propertyExpression.mpr
      ⟨a.first, a.name, rfl, a.isWordStart_first, a.isWord_name⟩
    have hequals := mem_equalsExpression.mpr
      ⟨a.blanksBefore, a.blanksBehind, rfl, a.isBlank_before, a.isBlank_behind⟩
    have hvalue := (mem_quotedExpression a.isQuote_quote).mpr
      ⟨a.body, rfl, a.quote_notMem, a.mentions⟩
    refine ⟨_, Language.mem_mul.mpr ⟨_, hproperty, _, hequals, rfl⟩, _,
      mem_quotedExpressions.mpr ⟨a.quote, a.isQuote_quote, hvalue⟩, ?_⟩
    rw [Assignment.text, List.append_assoc]

-- What is found in styles is the chain of assignments: each is the first that stands at or
-- behind the end of the one before it. At most one stands at a place, so that where it ends
-- is no matter of choice, and assignments are the words of a regular expression.
theorem findInStyle_exact (text : Bytes) :
    (∀ found, findInStyle text = found ↔ Match.Chain (AssignmentAt text) 0 found) ∧
    (∀ offset, {m | AssignmentAt text m ∧ m.start = offset}.Subsingleton) ∧
    ∀ word, word ∈ assignmentExpression ↔ IsAssignment word := by
  refine ⟨fun found => assignment_reads.findAll_eq_iff, fun offset => ?_,
    fun word => mem_assignmentExpression⟩
  rintro a ⟨ha, hstart⟩ b ⟨hb, hother⟩
  exact assignment_reads.eq_of_start ha hb (hstart.trans hother.symm)

-- A comparison is no assignment, and an assignment within a string that is assigned is part
-- of that string.
example : findInStyle (utf8 "a.style.x == 'var(--a)' b.style.y='c.style.z=\"var(--d)\"'") =
    [⟨utf8 ".style.y='c.style.z=\"var(--d)\"'", 25⟩] := by decide

end ThemeLint.ThemeVariable
