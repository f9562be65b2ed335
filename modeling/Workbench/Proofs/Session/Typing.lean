import Mathlib.Data.List.Forall2
import Workbench.Proofs.Text.Words
import Workbench.Session.Command

/-! # Typed commands

Every command can be typed. A line is put together from a verb, the arguments between blanks,
and for some commands a text, in which a backslash before `n` or `t` stands for a line end or
a tab. Such a line is parsed as the command it was put together for, however many blanks are
typed where one would do. -/

namespace Workbench

open Text

/-! ## Texts -/

namespace Text

/-- What a typed text stands for, read once from left to right. -/
def interpret : List Char → List Char
  | '\\' :: 'n' :: rest => '\n' :: interpret rest
  | '\\' :: 't' :: rest => '\t' :: interpret rest
  | c :: rest => c :: interpret rest
  | [] => []

variable {first second replacement c d : Char} {rest : List Char}

theorem replacePair_pair :
    replacePair first second replacement (first :: second :: rest) =
      replacement :: replacePair first second replacement rest := by
  simp [replacePair]

/-- A character that does not begin the mark is kept. -/
theorem replacePair_cons (h : ¬ (c = first ∧ rest.head? = some second)) :
    replacePair first second replacement (c :: rest) =
      c :: replacePair first second replacement rest := by
  cases rest with
  | nil => rfl
  | cons d rest =>
      rw [List.head?_cons, Option.some.injEq] at h
      rw [replacePair, if_neg h]

/-- What begins a text after the replacement has begun it before, or is the replacement. -/
theorem head?_of_replacePair (h : (replacePair first second replacement rest).head? = some d) :
    d = replacement ∨ rest.head? = some d := by
  cases rest with
  | nil => exact .inr h
  | cons c rest =>
      by_cases hmark : c = first ∧ rest.head? = some second
      · obtain ⟨rfl, hsecond⟩ := hmark
        obtain ⟨more, rfl⟩ := List.head?_eq_some_iff.mp hsecond
        rw [replacePair_pair, List.head?_cons, Option.some.injEq] at h
        exact .inl h.symm
      · rw [replacePair_cons hmark] at h
        exact .inr h

/-- Two replacements one after the other are one reading: a line end that was put in neither
begins nor ends a mark for a tab. -/
theorem replacePair_replacePair (text : List Char) :
    replacePair '\\' 't' '\t' (replacePair '\\' 'n' '\n' text) = interpret text := by
  induction text using interpret.induct with
  | case1 rest ih => rw [replacePair_pair, replacePair_cons (by simp), ih, interpret]
  | case2 rest ih =>
      have hkept : replacePair '\\' 'n' '\n' ('\\' :: 't' :: rest) =
          '\\' :: 't' :: replacePair '\\' 'n' '\n' rest := by
        rw [replacePair_cons (by simp), replacePair_cons (by simp)]
      rw [hkept, replacePair_pair, ih, interpret]
  | case3 c rest hline htab ih =>
      have hkept : ¬ (c = '\\' ∧ rest.head? = some 'n') := by
        rintro ⟨rfl, hhead⟩
        obtain ⟨more, rfl⟩ := List.head?_eq_some_iff.mp hhead
        exact hline more rfl rfl
      have hkept' : ¬ (c = '\\' ∧ (replacePair '\\' 'n' '\n' rest).head? = some 't') := by
        rintro ⟨rfl, hhead⟩
        obtain ⟨more, rfl⟩ :=
          List.head?_eq_some_iff.mp ((head?_of_replacePair hhead).resolve_left (by decide))
        exact htab more rfl rfl
      rw [replacePair_cons hkept, replacePair_cons hkept', ih, interpret]
      · exact fun more hc hrest => hline more hc hrest
      · exact fun more hc hrest => htab more hc hrest
  | case4 => rfl

end Text

/-! ## Arguments -/

/-- An argument of a command, apart from a text. -/
inductive Argument
  | position (n : Nat)
  | word (text : String)
  deriving DecidableEq

namespace Argument

/-- The ways to type an argument. A position is typed in decimal digits, with zeros and a plus
sign before them if one likes, and a word as it is. -/
inductive Spells : Argument → List Char → Prop
  | position (n zeros : Nat) :
      Spells (.position n) (List.replicate zeros '0' ++ Nat.toDigits 10 n)
  | signed (n zeros : Nat) :
      Spells (.position n) ('+' :: (List.replicate zeros '0' ++ Nat.toDigits 10 n))
  | word (text : String) : Spells (.word text) text.toList

/-- The way to type an argument with nothing added. -/
def plain : Argument → List Char
  | .position n => Nat.toDigits 10 n
  | .word text => text.toList

theorem spells_plain (argument : Argument) : argument.Spells argument.plain := by
  cases argument with
  | position n => exact .position n 0
  | word text => exact .word text

/-- A position fits into 64 bits, and a word is not empty and has no blanks. -/
def Typable : Argument → Prop
  | .position n => n < Word.capacity 64
  | .word text => IsWord text.toList

variable {n zeros : Nat} {cs : List Char} {argument : Argument} {text : String}

theorem isDigit_of_mem {c : Char} (h : c ∈ List.replicate zeros '0' ++ Nat.toDigits 10 n) :
    c.isDigit = true := by
  rcases List.mem_append.mp h with hzero | hdigit
  · rw [List.eq_of_mem_replicate hzero]
    rfl
  · exact Nat.isDigit_of_mem_toDigits (by decide) (by decide) hdigit

/-- Zeros at the beginning do not count. -/
theorem decimal?_digits (n zeros : Nat) :
    Command.decimal? (List.replicate zeros '0' ++ Nat.toDigits 10 n) = some n := by
  have hdigits : (List.replicate zeros '0' ++ Nat.toDigits 10 n).all Char.isDigit = true :=
    List.all_eq_true.mpr fun c hc => isDigit_of_mem hc
  have hvalue : ∀ zeros, (List.replicate zeros '0').foldl
      (fun n c => 10 * n + (c.toNat - '0'.toNat)) 0 = 0 := by
    intro zeros
    induction zeros with
    | zero => rfl
    | succ zeros ih => exact ih
  have hfold := Nat.ofDigitChars_ten_toDigits (n := n)
  rw [Nat.ofDigitChars_eq_foldl] at hfold
  rw [Command.decimal?, hdigits, List.foldl_append, hvalue, hfold]
  simp [Nat.toDigits_ne_nil]

/-- A typed position is read. -/
theorem index?_of_spells (hfits : n < Word.capacity 64) (h : Spells (.position n) cs) :
    Command.index? (String.ofList cs) = some n := by
  have hread : ∀ zeros, (Command.decimal? (List.replicate zeros '0' ++ Nat.toDigits 10 n)).filter
      Word.fits = some n := by
    intro zeros
    have hword : Word.fits n = true := decide_eq_true hfits
    rw [decimal?_digits, Option.filter_some, if_pos hword]
  unfold Command.index?
  rw [String.toList_ofList]
  cases h with
  | signed _ zeros => exact hread zeros
  | position _ zeros =>
      split
      next rest heq =>
        -- A digit is no plus sign.
        have hsign : '+'.isDigit = true := isDigit_of_mem (by rw [heq]; exact List.mem_cons_self)
        cases hsign
      next => exact hread zeros

theorem position_of_spells (hfits : n < Word.capacity 64) (h : Spells (.position n) cs)
    (usage : String) : Command.position (some (String.ofList cs)) usage = .ok n := by
  rw [Command.position]
  simp only [index?_of_spells hfits h]

/-- Every typed argument is a word of the line. -/
theorem isWord_of_spells (h : argument.Spells cs) (htypable : argument.Typable) : IsWord cs := by
  have hdigit : ∀ c : Char, c.isDigit = true → isBlank c = false := by
    intro c hc
    have hrange : 48 ≤ c.toNat ∧ c.toNat ≤ 57 := by
      unfold Char.isDigit at hc
      rw [Bool.and_eq_true, decide_eq_true_eq, decide_eq_true_eq] at hc
      exact hc
    simp only [isBlank, Bool.or_eq_false_iff, Bool.and_eq_false_iff, decide_eq_false_iff_not,
      beq_eq_false_iff_ne]
    omega
  cases h with
  | word text => exact htypable
  | position n zeros =>
      exact ⟨by simp [Nat.toDigits_ne_nil], fun c hc => hdigit c (isDigit_of_mem hc)⟩
  | signed n zeros =>
      refine ⟨List.cons_ne_nil _ _, List.forall_mem_cons.mpr ⟨by decide, fun c hc => ?_⟩⟩
      exact hdigit c (isDigit_of_mem hc)

end Argument

/-! ## Lines -/

/-- A way to type a command: its verb, its arguments, and for some commands a text. -/
structure CommandForm where
  verb : String
  arguments : List Argument
  text : Option String := none

/-- The lines that are typed in a form. Blanks stand around the line, at least one before each
argument, and one before the text, unless the text is empty. -/
inductive CommandForm.Types : CommandForm → List Char → Prop
  | plain {verb : String} {arguments : List Argument} {words : List (List Char)}
      {lead cs trail : List Char} (hlead : Blanks lead)
      (hwords : List.Forall₂ Argument.Spells arguments words) (hspaced : Spaced words cs)
      (htrail : Blanks trail) :
      Types { verb, arguments } (lead ++ (verb.toList ++ cs ++ trail))
  | text {verb text : String} {arguments : List Argument} {words : List (List Char)}
      {lead cs trail : List Char} {blank : Char} (hlead : Blanks lead)
      (hwords : List.Forall₂ Argument.Spells arguments words) (hspaced : Spaced words cs)
      (hblank : isBlank blank = true) (htrail : Blanks trail) :
      Types { verb, arguments, text := some text }
        (lead ++ (verb.toList ++ cs ++ blank :: (text.toList ++ trail)))
  | textless {verb : String} {arguments : List Argument} {words : List (List Char)}
      {lead cs trail : List Char} (hlead : Blanks lead)
      (hwords : List.Forall₂ Argument.Spells arguments words) (hspaced : Spaced words cs)
      (htrail : Blanks trail) :
      Types { verb, arguments, text := some "" } (lead ++ (verb.toList ++ cs ++ trail))

namespace CommandForm

variable {form : CommandForm} {lead trail : List Char}

/-- The words that an argument list is spelled by if nothing is added. -/
def words (form : CommandForm) : List (List Char) := form.arguments.map Argument.plain

/-- The line of a form with one space between its parts. -/
def line (form : CommandForm) : List Char :=
  form.verb.toList ++ form.words.flatMap (' ' :: ·) ++
    (form.text.map fun text => ' ' :: text.toList).getD []

theorem spaced_flatMap {words : List (List Char)} (h : ∀ word ∈ words, IsWord word) :
    Spaced words (words.flatMap (' ' :: ·)) := by
  induction words with
  | nil => exact .nil
  | cons word words ih =>
      obtain ⟨hword, hwords⟩ := List.forall_mem_cons.mp h
      have hgap : Blanks [' '] := by decide
      exact .cons (List.cons_ne_nil _ _) hgap hword (ih hwords)

/-- The line with single spaces is typed in its form, also between blanks. -/
theorem types_line (hargs : ∀ argument ∈ form.arguments, argument.Typable) (hlead : Blanks lead)
    (htrail : Blanks trail) : form.Types (lead ++ (form.line ++ trail)) := by
  have hspells : List.Forall₂ Argument.Spells form.arguments form.words :=
    List.forall₂_map_right_iff.mpr (List.forall₂_same.mpr fun argument _ => argument.spells_plain)
  have hspaced : Spaced form.words (form.words.flatMap (' ' :: ·)) := by
    refine spaced_flatMap fun word hword => ?_
    obtain ⟨argument, hargument, rfl⟩ := List.mem_map.mp hword
    exact Argument.isWord_of_spells argument.spells_plain (hargs argument hargument)
  obtain ⟨verb, arguments, _ | text⟩ := form
  · have hline : Types { verb, arguments } _ := .plain hlead hspells hspaced htrail
    simpa [line] using hline
  · have hline : Types { verb, arguments, text := some text } _ :=
      .text hlead hspells hspaced (by decide : isBlank ' ' = true) htrail
    simpa [line] using hline

end CommandForm

namespace ConflictAction

/-- The arguments by which an action is chosen. -/
def arguments : ConflictAction → List Argument
  | .acceptServer => [.word "server"]
  | .keepLocal => [.word "local"]
  | .saveAs newPath => [.word "save-as", .word newPath]

end ConflictAction

namespace Command

/-- The ways to type a command. The content of `edit` and `upload` stands for the text as it is
typed. -/
def forms : Command → List CommandForm
  | .openPath path => [{ verb := "open", arguments := [.word path] }]
  | .click index => [{ verb := "click", arguments := [.position index] }]
  | .edit index text => [{ verb := "edit", arguments := [.position index], text := some text }]
  | .save index => [{ verb := "save", arguments := [.position index] }]
  | .close index => [{ verb := "close", arguments := [.position index] }]
  | .closeOthers index => [{ verb := "close-others", arguments := [.position index] }]
  | .closeAll => [{ verb := "close-all", arguments := [] }]
  | .move source target =>
      [{ verb := "move", arguments := [.position source, .position target] }]
  | .resolve index action =>
      [{ verb := "resolve", arguments := .position index :: action.arguments }]
  | .list folder =>
      { verb := "ls", arguments := [.word folder] } ::
        if folder = "/" then [{ verb := "ls", arguments := [] }] else []
  | .create path => [{ verb := "new", arguments := [.word path] }]
  | .rename oldPath newPath => [{ verb := "rename", arguments := [.word oldPath, .word newPath] }]
  | .delete path => [{ verb := "delete", arguments := [.word path] }]
  | .upload path text => [{ verb := "upload", arguments := [.word path], text := some text }]
  | .tabs => [{ verb := "tabs", arguments := [] }]
  | .pump => [{ verb := "pump", arguments := [] }]
  | .settle => [{ verb := "settle", arguments := [] }]
  | .help => [{ verb := "help", arguments := [] }]
  | .exit => [{ verb := "exit", arguments := [] }, { verb := "quit", arguments := [] }]

/-- The command that is meant when the content of `edit` and `upload` is a text as it is
typed. -/
def interpreted : Command → Command
  | .edit index text => .edit index (String.ofList (interpret text.toList))
  | .upload path text => .upload path (String.ofList (interpret text.toList))
  | c => c

/-- The positions of a command fit into 64 bits, its paths are not empty and have no blanks, and
no blank ends its text. -/
structure Typable (c : Command) : Prop where
  arguments : ∀ form ∈ c.forms, ∀ argument ∈ form.arguments, argument.Typable
  text : ∀ form ∈ c.forms, ∀ text ∈ form.text, ∀ last, text.toList.getLast? = some last →
    isBlank last = false

variable {line verb : String} {words : List (List Char)} {lead cs trail word text : List Char}

/-- A verb alone is parsed without arguments. -/
theorem parse_verb (hverb : IsWord verb.toList) (hhash : verb.toList.head? ≠ some '#')
    (htrim : trimChars line.toList = verb.toList) : parse line = (ofVerb verb []).map some := by
  unfold parse
  rw [htrim]
  split
  next hnil => exact absurd hnil hverb.ne_nil
  next heq => simp [heq] at hhash
  next =>
    rw [cutAtBlank_eq_none hverb.noBlank]
    dsimp only
    rw [String.ofList_toList]

/-- What follows the first blank is parsed as the arguments of the verb before it. -/
theorem parse_verb_append {blank : Char} {rest : List Char} (hverb : IsWord verb.toList)
    (hhash : verb.toList.head? ≠ some '#') (hblank : isBlank blank = true)
    (htrim : trimChars line.toList = verb.toList ++ blank :: rest) :
    parse line = (ofVerb verb (trimChars rest)).map some := by
  have hhead : (verb.toList ++ blank :: rest).head? ≠ some '#' := by
    rwa [List.head?_append_of_ne_nil _ hverb.ne_nil]
  unfold parse
  rw [htrim]
  split
  next hnil => simp at hnil
  next heq => simp [heq] at hhead
  next =>
    rw [cutAtBlank_append hverb.noBlank hblank]
    dsimp only
    rw [String.ofList_toList]

/-- What follows a verb and a run of blanks is its argument text. -/
theorem parse_verb_gap {gap body : List Char} (hverb : IsWord verb.toList)
    (hhash : verb.toList.head? ≠ some '#') (hlead : Blanks lead) (hne : gap ≠ [])
    (hgap : Blanks gap) (hbody : Trimmed body) (hbody_ne : body ≠ []) (htrail : Blanks trail)
    (hline : line.toList = lead ++ (verb.toList ++ (gap ++ body) ++ trail)) :
    parse line = (ofVerb verb body).map some := by
  have hends : ∀ c, (gap ++ body).getLast? = some c → isBlank c = false := by
    intro c hc
    rw [List.getLast?_append_of_ne_nil _ hbody_ne] at hc
    exact hbody.ends c hc
  have htrim : trimChars line.toList = verb.toList ++ (gap ++ body) := by
    rw [hline, trimChars_append hlead (hverb.trimmed_append hends) htrail]
  obtain ⟨blank, gap, rfl⟩ := List.exists_cons_of_ne_nil hne
  obtain ⟨hblank, hgap⟩ := List.forall_mem_cons.mp hgap
  rw [parse_verb_append hverb hhash hblank htrim]
  exact congrArg (fun rest => (ofVerb verb rest).map some) (trimChars_blanks_append hgap hbody)

/-- A verb with words behind it is parsed with an argument text that has these words. -/
theorem parse_spaced (hverb : IsWord verb.toList) (hhash : verb.toList.head? ≠ some '#')
    (hlead : Blanks lead) (hspaced : Spaced words cs) (htrail : Blanks trail)
    (hline : line.toList = lead ++ (verb.toList ++ cs ++ trail)) :
    ∃ rest, wordsOf rest = words ∧ parse line = (ofVerb verb rest).map some := by
  cases hspaced with
  | nil =>
      rw [List.append_nil] at hline
      refine ⟨[], rfl, parse_verb hverb hhash ?_⟩
      rw [hline, trimChars_append hlead hverb.trimmed htrail]
  | @cons gap word cs words hne hgap hword hspaced =>
      have hbody := hword.trimmed_append hspaced.ends
      exact ⟨word ++ cs, hspaced.wordsOf hword, parse_verb_gap hverb hhash hlead hne hgap hbody
        (List.append_ne_nil_of_left_ne_nil hword.ne_nil _) htrail hline⟩

/-- A verb with one word behind it is parsed with an argument text that is cut into the word and
nothing. -/
theorem parse_spaced_word (hverb : IsWord verb.toList) (hhash : verb.toList.head? ≠ some '#')
    (hlead : Blanks lead) (hspaced : Spaced [word] cs) (htrail : Blanks trail)
    (hline : line.toList = lead ++ (verb.toList ++ cs ++ trail)) :
    ∃ rest, splitFirst rest = (some (String.ofList word), []) ∧
      parse line = (ofVerb verb rest).map some := by
  obtain _ | ⟨hne, hgap, hword, _ | _⟩ := hspaced
  rw [List.append_nil] at hline
  refine ⟨word, ?_, parse_verb_gap hverb hhash hlead hne hgap hword.trimmed hword.ne_nil htrail
    hline⟩
  rw [splitFirst, cutAtBlank_eq_none hword.noBlank]
  simp [hword.ne_nil]

/-- A verb with a word and a text behind it is parsed with an argument text that is cut into the
two. -/
theorem parse_spaced_text {blank : Char} (hverb : IsWord verb.toList)
    (hhash : verb.toList.head? ≠ some '#') (hlead : Blanks lead) (hspaced : Spaced [word] cs)
    (hblank : isBlank blank = true)
    (hends : ∀ last, text.getLast? = some last → isBlank last = false) (htrail : Blanks trail)
    (hline : line.toList = lead ++ (verb.toList ++ cs ++ blank :: (text ++ trail))) :
    ∃ rest, splitFirst rest = (some (String.ofList word), text) ∧
      parse line = (ofVerb verb rest).map some := by
  by_cases htext : text = []
  · -- The blank before the text is trimmed away with those after it.
    subst htext
    exact parse_spaced_word hverb hhash hlead hspaced (List.forall_mem_cons.mpr ⟨hblank, htrail⟩)
      hline
  · obtain _ | ⟨hne, hgap, hword, _ | _⟩ := hspaced
    have hends' : ∀ c, (blank :: text).getLast? = some c → isBlank c = false := by
      intro c hc
      rw [List.getLast?_cons_of_ne_nil htext] at hc
      exact hends c hc
    refine ⟨word ++ blank :: text, ?_, parse_verb_gap hverb hhash hlead hne hgap
      (hword.trimmed_append hends') (by simp) htrail (by simpa using hline)⟩
    rw [splitFirst, cutAtBlank_append hword.noBlank hblank]

/-! ## Commands -/

theorem conflictAction_of_spells {action : ConflictAction}
    (h : List.Forall₂ Argument.Spells action.arguments words) (usage : String) :
    conflictAction (words.map String.ofList) usage = .ok action := by
  cases action with
  | acceptServer | keepLocal =>
      obtain _ | ⟨⟨_⟩, _ | _⟩ := h
      simp [conflictAction]
  | saveAs newPath =>
      obtain _ | ⟨⟨_⟩, _ | ⟨⟨_⟩, _ | _⟩⟩ := h
      simp [conflictAction, word, Except.map]

/-- The root is listed if no folder is given. -/
theorem eq_of_mem_forms_list {form : CommandForm} {folder : String}
    (h : form ∈ (Command.list folder).forms) :
    form = { verb := "ls", arguments := [.word folder] } ∨
      folder = "/" ∧ form = { verb := "ls", arguments := [] } := by
  rcases List.mem_cons.mp h with rfl | hroot
  · exact .inl rfl
  · split at hroot
    next heq => exact .inr ⟨heq, List.mem_singleton.mp hroot⟩
    next => cases hroot

/-- A verb and arguments are read as the command that has them, if it has no text. -/
theorem ofVerb_of_spells {c : Command} {form : CommandForm} {rest : List Char}
    (hform : form ∈ c.forms) (htext : form.text = none)
    (htypable : ∀ argument ∈ form.arguments, argument.Typable)
    (hwords : List.Forall₂ Argument.Spells form.arguments words) (hrest : wordsOf rest = words) :
    ofVerb form.verb rest = .ok c := by
  cases c with
  | edit | upload =>
      obtain rfl := List.mem_singleton.mp hform
      cases htext
  | closeAll | tabs | pump | settle | help =>
      obtain rfl := List.mem_singleton.mp hform
      rfl
  | exit => obtain rfl | rfl := List.mem_pair.mp hform <;> rfl
  | openPath path | create path | delete path =>
      obtain rfl := List.mem_singleton.mp hform
      obtain _ | ⟨⟨_⟩, _ | _⟩ := hwords
      simp [ofVerb, hrest, word, Except.map]
  | rename oldPath newPath =>
      obtain rfl := List.mem_singleton.mp hform
      obtain _ | ⟨⟨_⟩, _ | ⟨⟨_⟩, _ | _⟩⟩ := hwords
      simp [ofVerb, hrest, word, bind, Except.bind, pure, Except.pure]
  | list folder =>
      obtain rfl | ⟨rfl, rfl⟩ := eq_of_mem_forms_list hform
      · obtain _ | ⟨⟨_⟩, _ | _⟩ := hwords
        simp [ofVerb, hrest]
      · obtain _ | _ := hwords
        simp [ofVerb, hrest]
  | click index | save index | close index | closeOthers index =>
      obtain rfl := List.mem_singleton.mp hform
      obtain _ | ⟨hindex, _ | _⟩ := hwords
      have hread := Argument.position_of_spells (htypable _ List.mem_cons_self) hindex
      simp [ofVerb, hrest, hread, Except.map]
  | move source target =>
      obtain rfl := List.mem_singleton.mp hform
      obtain _ | ⟨hsource, _ | ⟨htarget, _ | _⟩⟩ := hwords
      have hread := Argument.position_of_spells (htypable _ List.mem_cons_self) hsource
      have hread' := Argument.position_of_spells (htypable (.position target) (by simp)) htarget
      simp [ofVerb, hrest, hread, hread', bind, Except.bind, pure, Except.pure]
  | resolve index action =>
      obtain rfl := List.mem_singleton.mp hform
      obtain _ | ⟨hindex, haction⟩ := hwords
      have hread := Argument.position_of_spells (htypable _ List.mem_cons_self) hindex
      have hchosen := conflictAction_of_spells haction
      simp [ofVerb, hrest, hread, hchosen, bind, Except.bind, pure, Except.pure]

/-- Only `edit` and `upload` have a text, after one argument. -/
theorem eq_of_text {c : Command} {form : CommandForm} {raw : String} (hform : form ∈ c.forms)
    (htext : form.text = some raw) :
    (∃ index, c = .edit index raw ∧ form = ⟨"edit", [.position index], some raw⟩) ∨
      ∃ path, c = .upload path raw ∧ form = ⟨"upload", [.word path], some raw⟩ := by
  cases c
  case edit index text =>
    obtain rfl := List.mem_singleton.mp hform
    obtain rfl := Option.some.inj htext
    exact .inl ⟨index, rfl, rfl⟩
  case upload path text =>
    obtain rfl := List.mem_singleton.mp hform
    obtain rfl := Option.some.inj htext
    exact .inr ⟨path, rfl, rfl⟩
  case list folder => obtain rfl | ⟨-, rfl⟩ := eq_of_mem_forms_list hform <;> cases htext
  case exit => obtain rfl | rfl := List.mem_pair.mp hform <;> cases htext
  all_goals
    obtain rfl := List.mem_singleton.mp hform
    cases htext

/-- One word is typed before a text. -/
theorem words_of_text {c : Command} {form : CommandForm} {raw : String} (hform : form ∈ c.forms)
    (htext : form.text = some raw) (hwords : List.Forall₂ Argument.Spells form.arguments words) :
    ∃ word, words = [word] := by
  obtain ⟨_, -, rfl⟩ | ⟨_, -, rfl⟩ := eq_of_text hform htext
  all_goals
    obtain _ | ⟨_, _ | _⟩ := hwords
    exact ⟨_, rfl⟩

/-- Only the content of `edit` and `upload` stands for something else. -/
theorem interpreted_of_textless {c : Command} {form : CommandForm} (hform : form ∈ c.forms)
    (htext : form.text = none) : c.interpreted = c := by
  cases c with
  | edit | upload =>
      obtain rfl := List.mem_singleton.mp hform
      cases htext
  | _ => rfl

theorem unescape_eq (raw : String) :
    unescape raw.toList = String.ofList (interpret raw.toList) :=
  congrArg String.ofList (replacePair_replacePair raw.toList)

/-- No verb has blanks or begins with a hash sign. -/
theorem isWord_verb {c : Command} {form : CommandForm} (hform : form ∈ c.forms) :
    IsWord form.verb.toList ∧ form.verb.toList.head? ≠ some '#' := by
  have hverbs : ∀ verb ∈ ["open", "click", "edit", "save", "close", "close-others", "close-all",
      "move", "resolve", "ls", "new", "rename", "delete", "upload", "tabs", "pump", "settle",
      "help", "exit", "quit"], IsWord verb.toList ∧ verb.toList.head? ≠ some '#' := by
    decide
  refine hverbs form.verb ?_
  cases c
  case list folder => obtain rfl | ⟨-, rfl⟩ := eq_of_mem_forms_list hform <;> simp
  case exit => obtain rfl | rfl := List.mem_pair.mp hform <;> simp
  all_goals
    obtain rfl := List.mem_singleton.mp hform
    simp

/-- A verb, a word and a text are read as the command that has them, if the text stands for what
is typed. -/
theorem ofVerb_of_splitFirst {c : Command} {form : CommandForm} {rest : List Char} {raw : String}
    (hform : form ∈ c.forms) (htext : form.text = some raw)
    (htypable : ∀ argument ∈ form.arguments, argument.Typable)
    (hwords : List.Forall₂ Argument.Spells form.arguments [word])
    (hrest : splitFirst rest = (some (String.ofList word), raw.toList)) :
    ofVerb form.verb rest = .ok c.interpreted := by
  obtain ⟨index, rfl, rfl⟩ | ⟨path, rfl, rfl⟩ := eq_of_text hform htext
  · obtain _ | ⟨hindex, _⟩ := hwords
    have hread := Argument.position_of_spells (htypable _ List.mem_cons_self) hindex
    simp [ofVerb, hrest, hread, unescape_eq, interpreted, Except.map]
  · obtain _ | ⟨⟨_⟩, _⟩ := hwords
    simp [ofVerb, hrest, Command.word, unescape_eq, interpreted, Except.map]

/-- Every command can be typed: a line in one of its forms is parsed as the command, in which the
content of `edit` and `upload` is what the typed text stands for. -/
theorem parse_of_types {c : Command} {form : CommandForm} {line : String} (hc : c.Typable)
    (hform : form ∈ c.forms) (hline : form.Types line.toList) :
    parse line = .ok (some c.interpreted) := by
  obtain ⟨hverb, hhash⟩ := isWord_verb hform
  have hargs := hc.arguments form hform
  generalize hcs : line.toList = cs at hline
  cases hline with
  | plain hlead hwords hspaced htrail =>
      obtain ⟨rest, hrest, hparse⟩ := parse_spaced hverb hhash hlead hspaced htrail hcs
      rw [hparse, ofVerb_of_spells hform rfl hargs hwords hrest,
        interpreted_of_textless hform rfl]
      rfl
  | text hlead hwords hspaced hblank htrail =>
      obtain ⟨word, rfl⟩ := words_of_text hform rfl hwords
      have hends := hc.text _ hform _ rfl
      obtain ⟨rest, hrest, hparse⟩ :=
        parse_spaced_text hverb hhash hlead hspaced hblank hends htrail hcs
      rw [hparse, ofVerb_of_splitFirst hform rfl hargs hwords hrest]
      rfl
  | textless hlead hwords hspaced htrail =>
      obtain ⟨word, rfl⟩ := words_of_text hform rfl hwords
      obtain ⟨rest, hrest, hparse⟩ := parse_spaced_word hverb hhash hlead hspaced htrail hcs
      rw [hparse, ofVerb_of_splitFirst hform rfl hargs hwords hrest]
      rfl

/-- A command can be typed in some form, and whatever is typed in one of its forms is parsed as
the command, in which the content of `edit` and `upload` is what the typed text stands for. -/
structure CanBeTyped (c : Command) : Prop where
  hasForm : c.forms ≠ []
  spelled : ∀ form ∈ c.forms, ∀ lead trail, Blanks lead → Blanks trail →
    parse (String.ofList (lead ++ (form.line ++ trail))) = .ok (some c.interpreted)
  typed : ∀ form ∈ c.forms, ∀ line : String, form.Types line.toList →
    parse line = .ok (some c.interpreted)

/-- Whatever the positions, the paths and the text are, a command can be typed. -/
theorem canBeTyped {c : Command} (hc : c.Typable) : c.CanBeTyped where
  hasForm := by cases c <;> exact List.cons_ne_nil _ _
  spelled form hform lead trail hlead htrail := by
    refine parse_of_types hc hform ?_
    rw [String.toList_ofList]
    exact CommandForm.types_line (hc.arguments form hform) hlead htrail
  typed _ hform _ hline := parse_of_types hc hform hline

/-- The text begins with a blank and a hash sign, and a mark for a line end follows a backslash.
The words of the second line stand far apart. -/
theorem canBeTyped_edit_and_resolve :
    (edit 12 " #a\\\\n\\tn").Typable ∧
      parse "\tedit 12  #a\\\\n\\tn\n" = .ok (some (.edit 12 " #a\\\n\tn")) ∧
      (resolve 7 (.saveAs "b.md")).Typable ∧
      parse " resolve\t\t+07 save-as   b.md" = .ok (some (.resolve 7 (.saveAs "b.md"))) := by
  have hedit : (edit 12 " #a\\\\n\\tn").Typable := by
    constructor <;> simp only [forms, List.forall_mem_singleton]
    · exact show 12 < Word.capacity 64 by decide
    · rintro text ⟨⟩ last hlast
      obtain rfl : last = 'n' := by simpa using hlast.symm
      decide
  have hresolve : (resolve 7 (.saveAs "b.md")).Typable := by
    constructor <;> simp only [forms, ConflictAction.arguments, List.forall_mem_singleton]
    · simp only [List.forall_mem_cons]
      exact ⟨show 7 < Word.capacity 64 by decide, show IsWord "save-as".toList by decide,
        show IsWord "b.md".toList by decide, List.forall_mem_nil _⟩
    · nofun
  refine ⟨hedit, ?_, hresolve, ?_⟩
  · exact (canBeTyped hedit).spelled _ (List.mem_singleton_self _) ['\t'] ['\n'] (by decide)
      (by decide)
  · have hspaced : Spaced ["+07".toList, "save-as".toList, "b.md".toList]
        ("\t\t".toList ++ ("+07".toList ++ (" ".toList ++ ("save-as".toList ++
          ("   ".toList ++ ("b.md".toList ++ [])))))) :=
      .cons (by decide) (by decide) (by decide) (.cons (by decide) (by decide) (by decide)
        (.cons (by decide) (by decide) (by decide) .nil))
    refine (canBeTyped hresolve).typed _ (List.mem_singleton_self _) _ ?_
    exact .plain (by decide : Blanks [' '])
      (.cons (.signed 7 1) (.cons (.word "save-as") (.cons (.word "b.md") .nil))) hspaced
      (by decide : Blanks [])

end Command

end Workbench
