import Colorization.CommandLine.Reading
import Colorization.Proofs.Except
import Colorization.Task

/-! The options that a command line gives, by its words alone, and what becomes of those that are given
more than once. The values of an option are kept in order on either side of the command's name; those in
front of it are lost if there are any behind it. -/
namespace Colorization.CommandLine

/-- A word that is read as options: it begins with a hyphen and goes on. -/
def IsOption (text : String) : Prop := ∃ c cs, text.toList = '-' :: c :: cs

/-- The letters behind a single hyphen, the options that they give, and the option whose value is the
next word. -/
inductive Letters (verb : Option Verb) : List Char → List (Opt × String) → Option Opt → Prop where
  | done : Letters verb [] [] none
  | flag : opt ∈ Opt.allowed verb → opt.short? = some c → opt.takesValue = false →
      Letters verb rest given next → Letters verb (c :: rest) ((opt, "") :: given) next
  | awaiting : opt ∈ Opt.allowed verb → opt.short? = some c → opt.takesValue = true →
      Letters verb [c] [] (some opt)
  | attached : opt ∈ Opt.allowed verb → opt.short? = some c → opt.takesValue = true → rest ≠ [] →
      Letters verb (c :: rest) [(opt, String.ofList (if rest.head? = some '=' then rest.tail else rest))] none

/-- A word of options, the options that it gives with their values, and the option whose value is the next
word. -/
inductive Spells (verb : Option Verb) (text : String) : List (Opt × String) → Option Opt → Prop where
  | flag : opt ∈ Opt.allowed verb → opt.takesValue = false →
      text.toList = '-' :: '-' :: opt.long.toList → Spells verb text [(opt, "")] none
  | awaiting : opt ∈ Opt.allowed verb → opt.takesValue = true →
      text.toList = '-' :: '-' :: opt.long.toList → Spells verb text [] (some opt)
  | attached : opt ∈ Opt.allowed verb → opt.takesValue = true →
      text.toList = '-' :: '-' :: (opt.long.toList ++ '=' :: value) →
      Spells verb text [(opt, String.ofList value)] none
  | letters : text.toList = '-' :: c :: cs → c ≠ '-' → Letters verb (c :: cs) given next →
      Spells verb text given next

/-- The words on one side of the command's name, after an option that awaits its value if there is one,
and the options that they give. -/
inductive Says (verb : Option Verb) : Option Opt → List String → List (Opt × String) → Prop where
  | done : Says verb none [] []
  | options : Spells verb text given next → Says verb next rest others →
      Says verb none (text :: rest) (given ++ others)
  | value : opt.takesHyphens = true ∨ ¬ IsOption text → Says verb none rest others →
      Says verb (some opt) (text :: rest) ((opt, text) :: others)
  | word : verb.isSome → ¬ IsOption text → Says verb none rest others → Says verb none (text :: rest) others
  | onlyWords : verb.isSome → Says verb none ("--" :: rest) []

theorem Opt.long_injective {one other : Opt} (same : one.long = other.long) : one = other := by
  cases one <;> cases other <;> first | rfl | exact absurd same (by decide)

theorem Opt.short?_injective {one other : Opt} (same : one.short? = some c) (same' : other.short? = some c) :
    one = other := by
  cases one <;> cases same <;> cases other <;> first | rfl | exact absurd same' (by decide)

/-- The name of an option ends where the word does, or at an equals sign. -/
theorem Opt.long_append_inj {one other : Opt} {rest rest' : List Char}
    (ends : rest.takeWhile (· ≠ '=') = []) (ends' : rest'.takeWhile (· ≠ '=') = [])
    (same : one.long.toList ++ rest = other.long.toList ++ rest') : one = other ∧ rest = rest' := by
  have name : ∀ (opt : Opt) {rest : List Char}, rest.takeWhile (· ≠ '=') = [] →
      (opt.long.toList ++ rest).takeWhile (· ≠ '=') = opt.long.toList := by
    intro opt rest ends
    have plain : opt.long.toList.all (· ≠ '=') = true := by cases opt <;> rfl
    rw [List.takeWhile_append_of_pos (List.all_eq_true.mp plain), ends, List.append_nil]
  have names := name one ends
  rw [same, name other ends'] at names
  cases Opt.long_injective (String.toList_inj.mp names)
  exact ⟨rfl, List.append_cancel_left same⟩

namespace Scan

/-- The options that have been given, those among them with their value that are not yet accepted. -/
def said (s : Scan) : List (Opt × String) :=
  s.given ++ match s.pending with
    | some (.option opt values) => values.map fun value => (opt, value)
    | _ => []

/-- Which option awaits its value. -/
inductive Awaits (s : Scan) : Option Opt → Prop where
  | nothing : s.awaiting = none → Awaits s none
  | value : s.awaiting = some opt → s.pending = some (.option opt []) → opt.takesValue = true →
      Awaits s (some opt)

variable {s s' middle : Scan} {verb : Option Verb} {opt : Opt} {text value : String}
  {given others : List (Opt × String)} {next : Option Opt}

theorem accept_eq_ok (accepted : s.accept opt values = .ok s') :
    s' = { s with given := s.given ++ values.map fun value => (opt, value) } ∧
      ¬ (opt.takesValue = true ∧ values = []) := by
  unfold accept at accepted
  split at accepted
  · cases accepted
  next lacking =>
    split at accepted
    · cases accepted
    split at accepted <;> cases accepted
    exact ⟨rfl, by simpa using lacking⟩

/-- What is not yet accepted is accepted as it stands. -/
theorem settle_eq_ok (settled : s.settle = .ok s') :
    s'.given = s.said ∧ s'.pending = none ∧ s'.awaiting = s.awaiting ∧ s'.onlyWords = s.onlyWords := by
  unfold settle at settled
  split at settled
  next none =>
    cases settled
    simp [said, none]
  next opt values some =>
    obtain ⟨rfl, -⟩ := accept_eq_ok settled
    simp [said, some]
  next values some =>
    split at settled <;> cases settled
    simp [said, some]

/-- An option without the value that it takes is not accepted. -/
theorem Awaits.not_settles (awaits : s.Awaits (some opt)) : s.settle ≠ .ok s' := by
  cases awaits with
  | value _ pending takes =>
    intro settled
    unfold settle at settled
    rw [pending] at settled
    exact (accept_eq_ok settled).2 ⟨takes, rfl⟩

/-- An option with what it gives has been read in full. -/
structure Adds (s s' : Scan) (given : List (Opt × String)) (next : Option Opt) : Prop where
  said : s'.said = s.said ++ given
  onlyWords : s'.onlyWords = s.onlyWords
  awaits : s'.Awaits next

theorem Adds.trans (one : Adds s middle given none) (two : Adds middle s' others next) :
    Adds s s' (given ++ others) next :=
  ⟨by rw [two.said, one.said, List.append_assoc], two.onlyWords.trans one.onlyWords, two.awaits⟩

theorem adds_of_accept {t : Scan} (settled : s.settle = .ok t)
    (accepted : Scan.accept { t with awaiting := none } opt [value] = .ok s') :
    Adds s s' [(opt, value)] none := by
  obtain ⟨given, noPending, -, onlyWords⟩ := settle_eq_ok settled
  obtain ⟨rfl, -⟩ := accept_eq_ok accepted
  exact ⟨by simp [said, noPending, given], onlyWords, .nothing rfl⟩

theorem adds_of_flag (flagged : s.flag opt = .ok s') : Adds s s' [(opt, "")] none := by
  obtain ⟨t, settled, flagged⟩ := bind_eq_ok_iff.mp flagged
  split at flagged
  · cases flagged
  split at flagged
  · cases flagged
  exact adds_of_accept settled flagged

theorem adds_of_valued_some (valued : s.valued opt (some value) = .ok s') :
    Adds s s' [(opt, value)] none := by
  obtain ⟨t, settled, valued⟩ := bind_eq_ok_iff.mp valued
  exact adds_of_accept settled valued

theorem adds_of_valued_none (takes : opt.takesValue = true) (valued : s.valued opt none = .ok s') :
    Adds s s' [] (some opt) := by
  obtain ⟨t, settled, valued⟩ := bind_eq_ok_iff.mp valued
  obtain ⟨given, -, -, onlyWords⟩ := settle_eq_ok settled
  cases valued
  exact ⟨by simp [said, given], onlyWords, .value rfl rfl takes⟩

theorem adds_of_short (free : s.Awaits none) (read : s.short verb cs = .ok s') :
    ∃ given next, Letters verb cs given next ∧ Adds s s' given next := by
  induction cs generalizing s with
  | nil =>
    cases read
    exact ⟨[], none, .done, by simp, rfl, free⟩
  | cons c rest ih =>
    rw [short] at read
    split at read
    · cases read
    next opt isOpt =>
      have allowed := List.mem_of_find?_eq_some isOpt
      have letter : opt.short? = some c := by simpa using List.find?_some isOpt
      split at read
      next takes =>
        split at read
        · exact ⟨_, _, .awaiting allowed letter takes, adds_of_valued_none takes read⟩
        next value =>
          exact ⟨_, _, .attached allowed letter takes (by simp), adds_of_valued_some read⟩
        next notEmpty notEquals =>
          refine ⟨_, _, .attached allowed letter takes notEmpty, ?_⟩
          rw [if_neg]
          · exact adds_of_valued_some read
          · intro first
            obtain ⟨value, rfl⟩ := List.head?_eq_some_iff.mp first
            exact notEquals value rfl
      next takesNone =>
        obtain ⟨t, flagged, read⟩ := bind_eq_ok_iff.mp read
        have one := adds_of_flag flagged
        obtain ⟨given, next, letters, two⟩ := ih one.awaits read
        exact ⟨_, next, .flag allowed letter (Bool.eq_false_iff.mpr takesNone) letters, one.trans two⟩

/-- A name is cut off at the first equals sign. -/
theorem splitEquals_cases (cs : List Char) : splitEquals cs = (String.ofList cs, none) ∨
    ∃ name value, cs = name ++ '=' :: value ∧ splitEquals cs = (String.ofList name, some (String.ofList value)) := by
  have whole := List.takeWhile_append_dropWhile (p := (· ≠ '=')) (l := cs)
  have rest := @List.drop_left _ (cs.takeWhile (· ≠ '=')) (cs.dropWhile (· ≠ '='))
  rw [whole] at rest
  unfold splitEquals
  simp only [rest]
  cases behind : cs.dropWhile (· ≠ '=') with
  | nil =>
    rw [behind, List.append_nil] at whole
    exact .inl (by rw [whole])
  | cons c value =>
    have equals := List.head?_dropWhile_not (· ≠ '=') cs
    rw [behind] at equals whole
    obtain rfl : c = '=' := by simpa using equals
    exact .inr ⟨_, value, whole.symm, rfl⟩

theorem adds_of_long {cs : List Char} (isLong : text.toList = '-' :: '-' :: cs)
    (read : s.long verb (splitEquals cs).1 (splitEquals cs).2 = .ok s') :
    ∃ given next, Spells verb text given next ∧ Adds s s' given next := by
  unfold long at read
  split at read
  · cases read
  next opt isOpt =>
    have allowed := List.mem_of_find?_eq_some isOpt
    have name : opt.long = (splitEquals cs).1 := by simpa using List.find?_some isOpt
    rcases splitEquals_cases cs with same | ⟨before, value, rfl, same⟩
    all_goals
      rw [same] at read name
      dsimp only at read name
      have text' : opt.long.toList = _ := name ▸ String.toList_ofList
      split at read
    next takes => exact ⟨_, _, .awaiting allowed takes (text' ▸ isLong), adds_of_valued_none takes read⟩
    next takesNone =>
      exact ⟨_, _, .flag allowed (Bool.eq_false_iff.mpr takesNone) (text' ▸ isLong), adds_of_flag read⟩
    next takes => exact ⟨_, _, .attached allowed takes (text' ▸ isLong), adds_of_valued_some read⟩
    next => cases read

/-- A word is read for what it is when no option awaits its value. -/
theorem argument_cases (free : s.awaiting = none) (isOpen : s.onlyWords = false)
    (read : s.argument verb text = .ok s') :
    (text = "--" ∧ s' = { s with onlyWords := true }) ∨
    (∃ given next, Spells verb text given next ∧ Adds s s' given next) ∨
    ¬ IsOption text ∧ s.word verb text = .ok s' := by
  unfold argument at read
  simp only [free, isOpen, Option.filter_none, Bool.false_eq_true, if_false] at read
  split at read
  next dashes =>
    cases read
    exact .inl ⟨String.toList_inj.mp dashes, by rw [free]⟩
  next isLong => exact .inr (.inl (adds_of_long isLong read))
  next notBare notLong isShort =>
    obtain ⟨given, next, letters, adds⟩ := adds_of_short (.nothing free) read
    exact .inr (.inl ⟨given, next, .letters isShort notLong letters, adds⟩)
  next notOption =>
    refine .inr (.inr ⟨?_, read⟩)
    rintro ⟨c, cs, text⟩
    exact notOption c cs text

theorem Awaits.not_valued {attached : Option String} (awaits : s.Awaits (some opt)) :
    s.valued opt' attached ≠ .ok s' := by
  intro read
  obtain ⟨t, settled, -⟩ := bind_eq_ok_iff.mp read
  exact awaits.not_settles settled

theorem Awaits.not_flag (awaits : s.Awaits (some opt)) : s.flag opt' ≠ .ok s' := by
  intro read
  obtain ⟨t, settled, -⟩ := bind_eq_ok_iff.mp read
  exact awaits.not_settles settled

theorem Awaits.not_long {attached : Option String} (awaits : s.Awaits (some opt)) :
    s.long verb name attached ≠ .ok s' := by
  intro read
  unfold long at read
  split at read
  · cases read
  split at read
  · exact awaits.not_valued read
  split at read
  · cases read
  · exact awaits.not_flag read

theorem Awaits.not_short {c : Char} {cs : List Char} (awaits : s.Awaits (some opt)) :
    s.short verb (c :: cs) ≠ .ok s' := by
  intro read
  rw [short] at read
  split at read
  · cases read
  next opt' _ =>
    split at read
    · split at read <;> exact awaits.not_valued read
    · obtain ⟨t, flagged, -⟩ := bind_eq_ok_iff.mp read
      exact awaits.not_flag flagged

/-- An option that awaits its value takes the next word, unless that ends the options; then nothing more
can be accepted. -/
theorem argument_cases_of_awaits (awaits : s.Awaits (some opt)) (isOpen : s.onlyWords = false)
    (read : s.argument verb text = .ok s') :
    (s'.onlyWords = true ∧ s'.Awaits (some opt)) ∨
    (opt.takesHyphens = true ∨ ¬ IsOption text) ∧ Adds s s' [(opt, text)] none := by
  have taken : Adds s (s.value opt text) [(opt, text)] none := by
    cases awaits with
    | value _ pending => exact ⟨by simp [said, Scan.value, pending], rfl, .nothing rfl⟩
  unfold argument at read
  rw [isOpen] at read
  by_cases hyphens : opt.takesHyphens = true
  · cases awaits with
    | value isNext =>
      rw [isNext, Option.filter_some, if_pos hyphens] at read
      cases read
      exact .inr ⟨.inl hyphens, taken⟩
  · have none : s.awaiting.filter Opt.takesHyphens = none := by
      cases awaits with
      | value isNext => rw [isNext, Option.filter_some, if_neg hyphens]
    rw [none] at read
    simp only [Bool.false_eq_true, if_false] at read
    split at read
    · cases read
      cases awaits with
      | value isNext pending takes => exact .inl ⟨rfl, .value isNext pending takes⟩
    · exact absurd read awaits.not_long
    · exact absurd read awaits.not_short
    next notOption =>
      refine .inr ⟨.inr ?_, ?_⟩
      · rintro ⟨c, cs, text⟩
        exact notOption c cs text
      · cases awaits with
        | value isNext =>
          rw [isNext] at read
          cases read
          exact taken

/-- Words that are no options give none. -/
theorem said_of_word (read : s.word verb text = .ok s') :
    verb.isSome ∧ s'.said = s.said ∧ s'.awaiting = s.awaiting ∧ s'.onlyWords = s.onlyWords := by
  unfold word at read
  split at read
  · cases read
  next verb =>
    refine ⟨rfl, ?_⟩
    have settles : ∀ {values}, (do return { (← s.settle) with pending := some (.words values) }) = .ok s' →
        s'.said = s.said ∧ s'.awaiting = s.awaiting ∧ s'.onlyWords = s.onlyWords := by
      intro values read
      obtain ⟨t, settled, read⟩ := bind_eq_ok_iff.mp read
      obtain ⟨given, -, awaiting, onlyWords⟩ := settle_eq_ok settled
      cases read
      exact ⟨by simp [said, given], awaiting, onlyWords⟩
    split at read
    next pending =>
      cases read
      exact ⟨by simp [said, pending], rfl, rfl⟩
    next => exact settles read
    next =>
      split at read
      · cases read
      · exact settles read

/-- Behind `--` an option that awaits its value is never accepted. -/
theorem Awaits.not_word (awaits : s.Awaits (some opt)) : s.word verb text ≠ .ok s' := by
  intro read
  unfold word at read
  have pending : ∀ values, s.pending ≠ some (.words values) := by
    cases awaits with
    | value _ pending =>
      rw [pending]
      nofun
  have settles : ∀ {values}, (do return { (← s.settle) with pending := some (.words values) }) ≠ .ok s' := by
    intro values read
    obtain ⟨t, settled, -⟩ := bind_eq_ok_iff.mp read
    exact awaits.not_settles settled
  split at read
  · cases read
  split at read
  next isWords => exact pending _ isWords
  · exact settles read
  · split at read
    · cases read
    · exact settles read

end Scan

open Scan (Awaits)

variable {s s' : Scan} {verb : Verb} {next : Option Opt} {words rest : List String}

/-- Behind `--` no option is given. -/
theorem given_of_onlyWords (ends : scanCommand verb s words = .ok s') (isClosed : s.onlyWords = true) :
    s'.given = s.said := by
  induction words generalizing s with
  | nil => exact (Scan.settle_eq_ok ends).1
  | cons text rest ih =>
    obtain ⟨t, read, ends⟩ := bind_eq_ok_iff.mp ends
    rw [Scan.argument, if_pos isClosed] at read
    obtain ⟨-, said, -, onlyWords⟩ := Scan.said_of_word read
    rw [ih ends (onlyWords.trans isClosed), said]

theorem Scan.Awaits.not_onlyWords (awaits : s.Awaits (some opt)) (isClosed : s.onlyWords = true) :
    scanCommand verb s words ≠ .ok s' := by
  intro ends
  cases words with
  | nil => exact awaits.not_settles ends
  | cons text rest =>
    obtain ⟨t, read, -⟩ := bind_eq_ok_iff.mp ends
    rw [Scan.argument, if_pos isClosed] at read
    exact awaits.not_word read

/-- What is given behind the command's name is what the words there say. -/
theorem says_of_scanCommand (ends : scanCommand verb s words = .ok s') (awaits : s.Awaits next)
    (isOpen : s.onlyWords = false) :
    ∃ given, Says (some verb) next words given ∧ s'.given = s.said ++ given := by
  induction words generalizing s next with
  | nil =>
    cases next with
    | none => exact ⟨[], .done, by rw [List.append_nil, (Scan.settle_eq_ok ends).1]⟩
    | some opt => exact absurd ends awaits.not_settles
  | cons text rest ih =>
    obtain ⟨t, read, ends⟩ := bind_eq_ok_iff.mp ends
    cases next with
    | some opt =>
      rcases Scan.argument_cases_of_awaits awaits isOpen read with ⟨isClosed, awaits⟩ | ⟨isValue, adds⟩
      · exact absurd ends (awaits.not_onlyWords isClosed)
      · obtain ⟨given, spoken, same⟩ := ih ends adds.awaits (adds.onlyWords.trans isOpen)
        exact ⟨_, .value isValue spoken, by rw [same, adds.said, List.append_assoc, List.singleton_append]⟩
    | none =>
      cases awaits with
      | nothing free =>
        rcases Scan.argument_cases free isOpen read with ⟨rfl, rfl⟩ | ⟨given, next, spells, adds⟩ |
          ⟨notOption, read⟩
        · refine ⟨[], .onlyWords rfl, ?_⟩
          rw [given_of_onlyWords ends rfl, List.append_nil]
          rfl
        · obtain ⟨others, spoken, same⟩ := ih ends adds.awaits (adds.onlyWords.trans isOpen)
          exact ⟨_, .options spells spoken, by rw [same, adds.said, List.append_assoc]⟩
        · obtain ⟨-, said, awaiting, onlyWords⟩ := Scan.said_of_word read
          obtain ⟨others, spoken, same⟩ := ih ends (.nothing (awaiting.trans free)) (onlyWords.trans isOpen)
          exact ⟨_, .word rfl notOption spoken, by rw [same, said]⟩

theorem name_of_ofName? (isVerb : Verb.ofName? text = some verb) : text = verb.name := by
  have named := List.find?_some isVerb
  exact (of_decide_eq_true named).symm

/-- In front of the command's name every word is an option or the value of one. -/
theorem not_scanFront_of_onlyWords (isClosed : s.onlyWords = true) :
    scanFront s words ≠ .ok (s', some (verb, rest)) := by
  intro ends
  cases words with
  | nil => cases ends
  | cons text words =>
    rw [scanFront, if_pos (.inl isClosed)] at ends
    obtain ⟨t, read, -⟩ := bind_eq_ok_iff.mp ends
    rw [Scan.argument, if_pos isClosed] at read
    cases (Scan.said_of_word read).1

/-- What is given in front of the command's name is what the words there say. -/
theorem says_of_scanFront (ends : scanFront s words = .ok (s', some (verb, rest))) (awaits : s.Awaits next)
    (isOpen : s.onlyWords = false) :
    ∃ before given, words = before ++ verb.name :: rest ∧ Says none next before given ∧
      s'.said = s.said ++ given := by
  induction words generalizing s next with
  | nil => cases ends
  | cons text words ih =>
    cases awaits with
    | value isNext pending takes =>
      rw [scanFront, if_pos (.inr (by rw [isNext]; rfl))] at ends
      obtain ⟨t, read, ends⟩ := bind_eq_ok_iff.mp ends
      rcases Scan.argument_cases_of_awaits (.value isNext pending takes) isOpen read with ⟨isClosed, -⟩ |
        ⟨isValue, adds⟩
      · exact absurd ends (not_scanFront_of_onlyWords isClosed)
      · obtain ⟨before, given, rfl, spoken, same⟩ := ih ends adds.awaits (adds.onlyWords.trans isOpen)
        exact ⟨text :: before, _, rfl, .value isValue spoken,
          by rw [same, adds.said, List.append_assoc, List.singleton_append]⟩
    | nothing free =>
      rw [scanFront, if_neg (by simp [isOpen, free])] at ends
      split at ends
      · cases ends
      split at ends
      next verb' isVerb =>
        cases ends
        exact ⟨[], [], by rw [List.nil_append, name_of_ofName? isVerb], .done, by simp⟩
      · obtain ⟨t, read, ends⟩ := bind_eq_ok_iff.mp ends
        rcases Scan.argument_cases free isOpen read with ⟨rfl, rfl⟩ | ⟨given, next, spells, adds⟩ | ⟨-, read⟩
        · exact absurd ends (not_scanFront_of_onlyWords rfl)
        · obtain ⟨before, others, rfl, spoken, same⟩ := ih ends adds.awaits (adds.onlyWords.trans isOpen)
          exact ⟨text :: before, _, rfl, .options spells spoken, by rw [same, adds.said, List.append_assoc]⟩
        · cases (Scan.said_of_word read).1

/-- A line of words has options in front of the command's name, and options behind it. -/
def Gives (words : List String) (front behind : List (Opt × String)) : Prop :=
  ∃ before verb rest, words = before ++ Verb.name verb :: rest ∧ Says none none before front ∧
    Says (some verb) none rest behind

/-- The values that are given for an option, in order. -/
def valuesIn (given : List (Opt × String)) (opt : Opt) : List String :=
  (given.filter (·.1 = opt)).map (·.2)

/-- The values of an option on the side that counts. -/
def counted (front behind : List (Opt × String)) (opt : Opt) : List String :=
  if valuesIn behind opt = [] then valuesIn front opt else valuesIn behind opt

theorem valuesOf_eq (front behind : Scan) (opt : Opt) :
    valuesOf front behind opt = counted front.given behind.given opt := by
  have has : behind.has opt = true ↔ valuesIn behind.given opt ≠ [] := by
    simp [Scan.has, valuesIn, List.filter_eq_nil_iff]
  unfold valuesOf counted
  by_cases isGiven : behind.has opt = true
  · rw [if_pos isGiven, if_neg (has.mp isGiven)]
    rfl
  · rw [if_neg isGiven, if_pos (Decidable.not_not.mp (mt has.mpr isGiven))]
    rfl

/-- An accepted line gives options on both sides of the command's name, and those that count are read. -/
theorem gives_of_read (isRead : read words = .ok arguments) :
    ∃ front behind, Gives words front behind ∧
      arguments.tokenizer = (counted front behind .tokenizer).head? ∧
      arguments.tokenizerArgs = counted front behind .tokenizerArg ∧
      arguments.themes = counted front behind .theme := by
  unfold read at isRead
  obtain ⟨⟨front, command⟩, scanned, isRead⟩ := bind_eq_ok_iff.mp isRead
  rcases command with _ | ⟨verb, rest⟩
  · obtain ⟨front, -, isRead⟩ := bind_eq_ok_iff.mp isRead
    nomatch isRead
  · obtain ⟨behind, scanned', isRead⟩ := bind_eq_ok_iff.mp isRead
    obtain ⟨command, -, isRead⟩ := bind_eq_ok_iff.mp isRead
    obtain ⟨front', settled, isRead⟩ := bind_eq_ok_iff.mp isRead
    obtain ⟨before, given, words', spoken, same⟩ := says_of_scanFront scanned (.nothing rfl) rfl
    obtain ⟨given', spoken', same'⟩ := says_of_scanCommand scanned' (.nothing rfl) rfl
    have isFront : front'.given = given := by rw [(Scan.settle_eq_ok settled).1, same]; rfl
    have isBehind : behind.given = given' := same'
    refine ⟨given, given', ⟨before, verb, rest, words', spoken, spoken'⟩, ?_⟩
    cases isRead
    simp only [valuesOf_eq, isFront, isBehind, and_self]

section Unique

variable {verb : Option Verb} {text : String} {given given' front behind : List (Opt × String)} {next' : Option Opt}

theorem Letters.unique {cs : List Char} (letters : Letters verb cs given next)
    (letters' : Letters verb cs given' next') : given = given' ∧ next = next' := by
  induction letters generalizing given' with
  | done =>
    cases letters'
    exact ⟨rfl, rfl⟩
  | flag _ isOpt takes _ ih =>
    cases letters' with
    | flag _ isOpt' _ rest' =>
      cases Opt.short?_injective isOpt isOpt'
      obtain ⟨rfl, rfl⟩ := ih rest'
      exact ⟨rfl, rfl⟩
    | awaiting _ isOpt' takes' | attached _ isOpt' takes' =>
      cases Opt.short?_injective isOpt isOpt'
      exact absurd (takes.symm.trans takes') (by decide)
  | awaiting _ isOpt takes | attached _ isOpt takes =>
    cases letters' with
    | flag _ isOpt' takes' =>
      cases Opt.short?_injective isOpt isOpt'
      exact absurd (takes.symm.trans takes') (by decide)
    | awaiting _ isOpt' | attached _ isOpt' =>
      cases Opt.short?_injective isOpt isOpt'
      first | exact ⟨rfl, rfl⟩ | contradiction

theorem Spells.isOption (spells : Spells verb text given next) : IsOption text := by
  cases spells with
  | flag _ _ isText | awaiting _ _ isText | attached _ _ isText => exact ⟨_, _, isText⟩
  | letters isText => exact ⟨_, _, isText⟩

theorem not_spells_dashes : ¬ Spells verb "--" given next := by
  intro spells
  have dashes : "--".toList = ['-', '-'] := rfl
  cases spells with
  | @flag opt _ _ isText | @awaiting opt _ _ isText =>
    rw [dashes] at isText
    cases opt <;> cases isText
  | attached _ _ isText =>
    rw [dashes] at isText
    simp at isText
  | letters isText notLong =>
    rw [dashes] at isText
    cases isText
    exact notLong rfl

/-- What the name of an option gives with what follows it in its word. -/
def longReading (opt : Opt) : List Char → List (Opt × String) × Option Opt
  | [] => if opt.takesValue then ([], some opt) else ([(opt, "")], none)
  | _ :: value => ([(opt, String.ofList value)], none)

theorem Spells.long_or_letters (spells : Spells verb text given next) :
    (∃ opt rest, text.toList = '-' :: '-' :: (Opt.long opt).toList ++ rest ∧
      rest.takeWhile (· ≠ '=') = [] ∧ (given, next) = longReading opt rest) ∨
    ∃ c cs, text.toList = '-' :: c :: cs ∧ c ≠ '-' ∧ Letters verb (c :: cs) given next := by
  cases spells with
  | flag _ takes isText => exact .inl ⟨_, [], by simpa using isText, rfl, by simp [longReading, takes]⟩
  | awaiting _ takes isText => exact .inl ⟨_, [], by simpa using isText, rfl, by simp [longReading, takes]⟩
  | attached _ takes isText => exact .inl ⟨_, _, isText, by simp, rfl⟩
  | letters isText notLong letters => exact .inr ⟨_, _, isText, notLong, letters⟩

theorem Spells.unique (spells : Spells verb text given next) (spells' : Spells verb text given' next') :
    given = given' ∧ next = next' := by
  rcases spells.long_or_letters with ⟨opt, rest, isText, ends, reading⟩ | ⟨c, cs, isText, notLong, letters⟩ <;>
    rcases spells'.long_or_letters with ⟨opt', rest', isText', ends', reading'⟩ |
      ⟨c', cs', isText', notLong', letters'⟩ <;>
    have same := isText.symm.trans isText'
  · have same : opt.long.toList ++ rest = opt'.long.toList ++ rest' := by simpa using same
    obtain ⟨rfl, rfl⟩ := Opt.long_append_inj ends ends' same
    exact Prod.mk.inj (reading.trans reading'.symm)
  · exact absurd (by simpa using same) (fun both : '-' = c' ∧ _ => notLong' both.1.symm)
  · exact absurd (by simpa using same) (fun both : c = '-' ∧ _ => notLong both.1)
  · cases same
    exact letters.unique letters'

theorem Says.unique {words : List String} (spoken : Says verb next words given)
    (spoken' : Says verb next words given') : given = given' := by
  induction spoken generalizing given' with
  | done =>
    cases spoken'
    rfl
  | options spells _ ih =>
    cases spoken' with
    | options spells' rest' =>
      obtain ⟨rfl, rfl⟩ := spells.unique spells'
      rw [ih rest']
    | word _ notOption => exact absurd spells.isOption notOption
    | onlyWords => exact absurd spells not_spells_dashes
  | value _ _ ih =>
    cases spoken' with
    | value _ rest' => rw [ih rest']
  | word _ notOption _ ih =>
    cases spoken' with
    | options spells' => exact absurd spells'.isOption notOption
    | word _ _ rest' => exact ih rest'
    | onlyWords => exact absurd ⟨_, _, rfl⟩ notOption
  | onlyWords =>
    cases spoken' with
    | options spells' => exact absurd spells' not_spells_dashes
    | word _ notOption => exact absurd ⟨_, _, rfl⟩ notOption
    | onlyWords => rfl

theorem Verb.name_injective {one other : Verb} (same : one.name = other.name) : one = other := by
  cases one <;> cases other <;> first | rfl | exact absurd same (by decide)

theorem Verb.not_isOption (verb : Verb) : ¬ IsOption verb.name := by
  rintro ⟨c, cs, text⟩
  cases verb <;> cases text

/-- The name of a command is no option in front of it. -/
theorem not_says_name {verb : Verb} : ¬ Says none none (verb.name :: words) given := by
  intro spoken
  generalize isName : verb.name = text at spoken
  cases spoken with
  | options spells => exact verb.not_isOption (isName ▸ spells.isOption)
  | word isVerb | onlyWords isVerb => cases isVerb

/-- The command's name stands where the options in front of it end. -/
theorem Says.name_unique {verb verb' : Verb} {before before' rest rest' : List String}
    (spoken : Says none next before given) (spoken' : Says none next before' given')
    (same : before ++ verb.name :: rest = before' ++ verb'.name :: rest') :
    given = given' ∧ verb = verb' ∧ rest = rest' := by
  induction spoken generalizing before' given' with
  | done =>
    cases before' with
    | nil =>
      obtain ⟨name, rest⟩ := List.cons.inj same
      cases spoken'
      exact ⟨rfl, Verb.name_injective name, rest⟩
    | cons text before' =>
      cases (List.cons.inj same).1
      exact absurd spoken' not_says_name
  | options spells spoken ih =>
    cases before' with
    | nil =>
      cases (List.cons.inj same).1
      exact absurd (.options spells spoken) not_says_name
    | cons text before' =>
      cases (List.cons.inj same).1
      cases spoken' with
      | options spells' spoken' =>
        obtain ⟨rfl, rfl⟩ := spells.unique spells'
        obtain ⟨rfl, others⟩ := ih spoken' (List.cons.inj same).2
        exact ⟨rfl, others⟩
      | word isVerb | onlyWords isVerb => cases isVerb
  | value _ _ ih =>
    cases spoken' with
    | value _ spoken' =>
      cases (List.cons.inj same).1
      obtain ⟨rfl, others⟩ := ih spoken' (List.cons.inj same).2
      exact ⟨rfl, others⟩
  | word isVerb | onlyWords isVerb => cases isVerb

theorem Gives.unique {front' behind' : List (Opt × String)} (gives : Gives words front behind)
    (gives' : Gives words front' behind') : front = front' ∧ behind = behind' := by
  obtain ⟨before, verb, rest, rfl, spoken, follow⟩ := gives
  obtain ⟨before', verb', rest', same, spoken', follow'⟩ := gives'
  obtain ⟨rfl, rfl, rfl⟩ := spoken.name_unique spoken' same
  exact ⟨rfl, follow.unique follow'⟩

end Unique

/-- All values of an option count unless it is given on both sides. -/
theorem counted_eq_append_iff {front behind : List (Opt × String)} {opt : Opt} :
    counted front behind opt = valuesIn front opt ++ valuesIn behind opt ↔
      valuesIn front opt = [] ∨ valuesIn behind opt = [] := by
  unfold counted
  by_cases none : valuesIn behind opt = []
  · simp [none]
  · simp [none, eq_comm (a := valuesIn behind opt)]

/-- What is read from a command line takes the place of the settings. -/
theorem Arguments.settings_of_resolve {arguments : Arguments} {settings config : Config} {task : Task}
    (resolved : arguments.resolve settings = .ok (task, config)) :
    arguments.tokenizerCommand settings.tokenizer = .ok config.tokenizer ∧
      config.themes = if arguments.themes = [] then settings.themes else arguments.themes := by
  obtain ⟨config', overridden, resolved⟩ := bind_eq_ok_iff.mp resolved
  obtain ⟨task', isTask, resolved⟩ := bind_eq_ok_iff.mp resolved
  cases resolved
  obtain ⟨tokenizer, isTokenizer, overridden⟩ := bind_eq_ok_iff.mp overridden
  cases overridden
  exact ⟨isTokenizer, by simp only [List.isEmpty_iff]⟩

theorem Arguments.args_of_tokenizerCommand {arguments : Arguments} {command command' : TokenizerCommand}
    (overridden : arguments.tokenizerCommand command = .ok command') :
    command'.args = if arguments.tokenizer = none ∧ arguments.tokenizerArgs = [] then command.args
      else arguments.tokenizerArgs := by
  unfold tokenizerCommand at overridden
  split at overridden
  next program isProgram =>
    cases overridden
    simp [isProgram]
  next noProgram =>
    split at overridden
    next empty =>
      cases overridden
      simp [noProgram, List.isEmpty_iff.mp empty]
    next some =>
      split at overridden
      · cases overridden
      · cases overridden
        simp [noProgram, mt List.isEmpty_iff.mpr some]

/-- What the command line has to say about the settings, by its words: the values of `--theme` and of
`--tokenizer-arg` are all there in order if they are given on one side of the command's name, and those in
front of it are not if there are some on both. -/
theorem values_reach_settings {arguments : Arguments} {settings config : Config} (isRead : read words = .ok arguments)
    (resolved : arguments.resolve settings = .ok (task, config)) :
    ∃ front behind, Gives words front behind ∧
      (∀ front' behind', Gives words front' behind' → front' = front ∧ behind' = behind) ∧
      config.themes = (if counted front behind .theme = [] then settings.themes else counted front behind .theme) ∧
      config.tokenizer.args = (if counted front behind .tokenizer = [] ∧ counted front behind .tokenizerArg = []
        then settings.tokenizer.args else counted front behind .tokenizerArg) ∧
      ∀ opt, counted front behind opt = valuesIn front opt ++ valuesIn behind opt ↔
        valuesIn front opt = [] ∨ valuesIn behind opt = [] := by
  obtain ⟨front, behind, gives, program, args, themes⟩ := gives_of_read isRead
  refine ⟨front, behind, gives, fun _ _ gives' => gives'.unique gives, ?_, ?_, fun _ => counted_eq_append_iff⟩
  · rw [(Arguments.settings_of_resolve resolved).2, themes]
  · rw [Arguments.args_of_tokenizerCommand (Arguments.settings_of_resolve resolved).1, args, program]
    simp only [List.head?_eq_none_iff]

/-- The settings of a suite with these themes. -/
def themed (themes : List String) : Config := { Config.default with themes }

theorem values_reach_settings_behind :
    ∃ front behind, Gives ["test", "--theme", "A", "--theme=B"] front behind ∧
      (themed ["A", "B"]).themes = counted front behind .theme := by
  have isRead : read ["test", "--theme", "A", "--theme=B"] =
      .ok ⟨none, none, [], ["A", "B"], false, false, .test false⟩ := rfl
  have resolved : (⟨none, none, [], ["A", "B"], false, false, .test false⟩ : Arguments).resolve Config.default =
      .ok (.suite Config.default.fixturesDir Config.default.resultsDir .check, themed ["A", "B"]) := rfl
  obtain ⟨front, behind, gives, -, themes, -, -⟩ := values_reach_settings isRead resolved
  refine ⟨front, behind, gives, ?_⟩
  by_cases none : counted front behind .theme = []
  · rw [if_pos none] at themes
    cases themes
  · rwa [if_neg none] at themes

theorem says_theme (verb : Option Verb) (isTheme : Opt.theme ∈ Opt.allowed verb) (plain : ¬ IsOption value) :
    Says verb none ["--theme", value] [(.theme, value)] :=
  .options (.awaiting isTheme rfl rfl) (.value (.inr plain) .done)

/-- A theme in front of the command's name is lost when there is another behind it. -/
theorem theme_lost_in_front :
    Gives ["--theme", "A", "test", "--theme", "B"] [(.theme, "A")] [(.theme, "B")] ∧
    ∃ arguments, read ["--theme", "A", "test", "--theme", "B"] = .ok arguments ∧
      arguments.resolve Config.default =
        .ok (.suite Config.default.fixturesDir Config.default.resultsDir .check, themed ["B"]) := by
  have plain : ∀ text ∈ ["A", "B"], ¬ IsOption text := by
    rintro text member ⟨c, cs, isText⟩
    simp at member
    rcases member with rfl | rfl <;> cases isText
  exact ⟨⟨["--theme", "A"], .test, ["--theme", "B"], rfl, says_theme none (by decide) (plain _ (by simp)),
    says_theme _ (by decide) (plain _ (by simp))⟩, _, rfl, rfl⟩

end Colorization.CommandLine
