import Mathlib.Data.List.Basic
import Mathlib.Data.List.Forall2
import Mathlib.Tactic.Common

/-!
# Incremental scanners

A scanner answers every symbol of a stream with a verdict.  Driven over
buffers, it emits a result and starts over after each completed word, and
gives up the rest of a buffer once a symbol is rejected.  This file relates
the buffers to the stream that they are cut from: which words a driven scanner
emits, and when the cutting is irrelevant.
-/

namespace IncrementalScanner

inductive Verdict
  | incomplete
  | complete
  | invalid
  deriving DecidableEq, Repr

/-- A transition system over symbols, with the state it starts every word in
and the result it reads off at the end of one. -/
structure Scanner (State Symbol Result : Type*) where
  start : State
  step : State → Symbol → State × Verdict
  result : State → Result

namespace Scanner

variable {State Symbol Result : Type*} (scanner : Scanner State Symbol Result)

/-- Read symbols up to the first one that is not answered `incomplete`. -/
def scan : State → List Symbol → State × Verdict × List Symbol
  | state, [] => (state, .incomplete, [])
  | state, symbol :: rest =>
      match scanner.step state symbol with
      | (next, .incomplete) => scan next rest
      | (next, .complete) => (next, .complete, rest)
      | (next, .invalid) => (next, .invalid, rest)

/-- The state after a text all of whose symbols are answered `incomplete`. -/
def advance : State → List Symbol → Option State
  | state, [] => some state
  | state, symbol :: rest =>
      match scanner.step state symbol with
      | (next, .incomplete) => advance next rest
      | _ => none

/-- The word is answered `complete` on its last symbol and not before. -/
def Accepts (state : State) (word : List Symbol) (final : State) : Prop :=
  scanner.scan state word = (final, .complete, [])

/-- Drive the scanner over one buffer. -/
def deliver : State → List Symbol → State × List Result
  | state, [] => (state, [])
  | state, symbol :: rest =>
      match scanner.step state symbol with
      | (next, .incomplete) => deliver next rest
      | (next, .complete) =>
          ((deliver scanner.start rest).1,
            scanner.result next :: (deliver scanner.start rest).2)
      | (next, .invalid) => (next, [])

/-- Drive the scanner over successive buffers. -/
def deliverAll : State → List (List Symbol) → State × List Result
  | state, [] => (state, [])
  | state, buffer :: buffers =>
      ((deliverAll (scanner.deliver state buffer).1 buffers).1,
        (scanner.deliver state buffer).2 ++
          (deliverAll (scanner.deliver state buffer).1 buffers).2)

/-- No symbol of the text is rejected. -/
def Clean : State → List Symbol → Prop
  | _, [] => True
  | state, symbol :: rest =>
      match scanner.step state symbol with
      | (next, .incomplete) => Clean next rest
      | (_, .complete) => Clean scanner.start rest
      | (_, .invalid) => False

/-- The text is the rest of the word in progress followed by whole words. -/
inductive ReadsWhole : State → List Symbol → Prop
  | between : ReadsWhole scanner.start []
  | word {state final : State} {word rest : List Symbol} :
      scanner.Accepts state word final → ReadsWhole scanner.start rest →
        ReadsWhole state (word ++ rest)

/-- Only the last symbol of each buffer may be rejected, so that no buffer has
symbols left over. -/
def Tidy : State → List (List Symbol) → Prop
  | _, [] => True
  | state, buffer :: buffers =>
      scanner.Clean state buffer.dropLast ∧
        Tidy (scanner.deliver state buffer).1 buffers

/-! ## Texts that stay inside one word -/

theorem advance_append (state : State) (first second : List Symbol) :
    scanner.advance state (first ++ second) =
      (scanner.advance state first).bind fun middle =>
        scanner.advance middle second := by
  induction first generalizing state with
  | nil => rfl
  | cons symbol first ih =>
      simp only [List.cons_append, advance]
      split
      · exact ih _
      · rfl

variable {scanner}

theorem advance_trans {state middle final : State} {first second : List Symbol}
    (before : scanner.advance state first = some middle)
    (after : scanner.advance middle second = some final) :
    scanner.advance state (first ++ second) = some final := by
  rw [advance_append, before, Option.bind_some, after]

theorem advance_cons {state next final : State} {symbol : Symbol}
    {rest : List Symbol}
    (head : scanner.step state symbol = (next, .incomplete))
    (tail : scanner.advance next rest = some final) :
    scanner.advance state (symbol :: rest) = some final := by
  simp only [advance, head, tail]

theorem accepts_cons {state final : State} {symbol : Symbol}
    {rest : List Symbol} (accepted : scanner.Accepts state (symbol :: rest) final) :
    (rest = [] ∧ scanner.step state symbol = (final, .complete)) ∨
      ∃ next, scanner.step state symbol = (next, .incomplete) ∧
        scanner.Accepts next rest final := by
  simp only [Accepts, scan] at accepted
  split at accepted
  · rename_i next head
    exact Or.inr ⟨next, head, accepted⟩
  · rename_i next head
    simp only [Prod.mk.injEq, true_and] at accepted
    obtain ⟨rfl, rfl⟩ := accepted
    exact Or.inl ⟨rfl, head⟩
  · simp at accepted

theorem not_accepts_nil (state final : State) :
    ¬ scanner.Accepts state [] final := by
  simp [Accepts, scan]

/-- A text that stays inside the word, followed by the end of the word. -/
theorem accepts_of_advance {state middle final : State}
    {body word : List Symbol}
    (inside : scanner.advance state body = some middle)
    (accepted : scanner.Accepts middle word final) :
    scanner.Accepts state (body ++ word) final := by
  induction body generalizing state with
  | nil =>
      simp only [advance, Option.some.injEq] at inside
      exact inside ▸ accepted
  | cons symbol body ih =>
      simp only [advance] at inside
      split at inside
      · rename_i next head
        simpa only [Accepts, List.cons_append, scan, head] using ih inside
      · simp at inside

/-- A beginning of an accepted word stays inside of it. -/
theorem exists_advance_of_accepts {state final : State}
    {body word : List Symbol} (accepted : scanner.Accepts state (body ++ word) final)
    (wordNonempty : word ≠ []) :
    ∃ middle, scanner.advance state body = some middle ∧
      scanner.Accepts middle word final := by
  induction body generalizing state with
  | nil => exact ⟨state, rfl, accepted⟩
  | cons symbol body ih =>
      rw [List.cons_append] at accepted
      rcases accepts_cons accepted with ⟨empty, _⟩ | ⟨next, head, rest⟩
      · simp [wordNonempty] at empty
      · obtain ⟨middle, inside, ended⟩ := ih rest
        exact ⟨middle, advance_cons head inside, ended⟩

/-- A symbol that leaves the state as it is may be repeated. -/
theorem advance_replicate {state : State} {symbol : Symbol}
    (absorbs : scanner.step state symbol = (state, .incomplete)) (count : Nat) :
    scanner.advance state (List.replicate count symbol) = some state := by
  induction count with
  | zero => rfl
  | succ count ih => exact advance_cons absorbs ih

theorem accepts_singleton {state final : State} {symbol : Symbol}
    (last : scanner.step state symbol = (final, .complete)) :
    scanner.Accepts state [symbol] final := by
  simp [Accepts, scan, last]

theorem Accepts.unique {state first second : State} {word : List Symbol}
    (one : scanner.Accepts state word first)
    (other : scanner.Accepts state word second) : first = second := by
  simpa [Accepts] using one.symm.trans other

/-- A text that gets stuck inside the word begins no accepted word. -/
theorem not_accepts_of_advance_none {state final : State}
    {body word : List Symbol}
    (stuck : scanner.advance state body = none) (wordNonempty : word ≠ []) :
    ¬ scanner.Accepts state (body ++ word) final := by
  induction body generalizing state with
  | nil => simp [advance] at stuck
  | cons symbol body ih =>
      intro accepted
      rw [List.cons_append] at accepted
      rcases accepts_cons accepted with ⟨empty, _⟩ | ⟨next, head, rest⟩
      · simp [wordNonempty] at empty
      · simp only [advance, head] at stuck
        exact ih stuck rest

/-! ## One buffer -/

theorem deliver_of_accepts {state final : State} {word : List Symbol}
    (accepted : scanner.Accepts state word final) (rest : List Symbol) :
    scanner.deliver state (word ++ rest) =
      ((scanner.deliver scanner.start rest).1,
        scanner.result final :: (scanner.deliver scanner.start rest).2) := by
  induction word generalizing state with
  | nil => exact absurd accepted (not_accepts_nil state final)
  | cons symbol word ih =>
      rcases accepts_cons accepted with ⟨rfl, last⟩ | ⟨next, head, tail⟩
      · simp [deliver, last]
      · simpa only [List.cons_append, deliver, head] using ih tail

theorem clean_of_accepts {state final : State} {word : List Symbol}
    (accepted : scanner.Accepts state word final) {rest : List Symbol}
    (restClean : scanner.Clean scanner.start rest) :
    scanner.Clean state (word ++ rest) := by
  induction word generalizing state with
  | nil => exact absurd accepted (not_accepts_nil state final)
  | cons symbol word ih =>
      rcases accepts_cons accepted with ⟨rfl, last⟩ | ⟨next, head, tail⟩
      · simpa [Clean, last] using restClean
      · simpa only [List.cons_append, Clean, head] using ih tail

/-- Up to a rejected symbol, a buffer may be cut anywhere. -/
theorem deliver_append {state : State} {first : List Symbol}
    (clean : scanner.Clean state first) (second : List Symbol) :
    scanner.deliver state (first ++ second) =
      ((scanner.deliver (scanner.deliver state first).1 second).1,
        (scanner.deliver state first).2 ++
          (scanner.deliver (scanner.deliver state first).1 second).2) := by
  induction first generalizing state with
  | nil => simp [deliver]
  | cons symbol first ih =>
      simp only [Clean] at clean
      simp only [List.cons_append, deliver]
      split <;> rename_i head <;> simp only [head] at clean
      · exact ih clean
      · rw [ih clean]
        simp

theorem clean_append (state : State) (first second : List Symbol) :
    scanner.Clean state (first ++ second) ↔
      scanner.Clean state first ∧
        scanner.Clean (scanner.deliver state first).1 second := by
  induction first generalizing state with
  | nil => simp [Clean, deliver]
  | cons symbol first ih =>
      simp only [List.cons_append, Clean, deliver]
      split <;> rename_i head <;> simp [ih]

/-- Where a buffer is given up: the symbols before the rejected one are clean. -/
theorem exists_rejected {state : State} {buffer : List Symbol}
    (rejected : ¬ scanner.Clean state buffer) :
    ∃ before symbol after, buffer = before ++ symbol :: after ∧
      scanner.Clean state before ∧
      scanner.step (scanner.deliver state before).1 symbol =
        ((scanner.deliver state buffer).1, .invalid) := by
  induction buffer generalizing state with
  | nil => simp [Clean] at rejected
  | cons symbol buffer ih =>
      simp only [Clean] at rejected
      split at rejected
      · rename_i next head
        obtain ⟨before, bad, after, rfl, clean, last⟩ := ih rejected
        refine ⟨symbol :: before, bad, after, rfl, ?_, ?_⟩
        · simpa only [Clean, head] using clean
        · simpa only [deliver, head] using last
      · rename_i next head
        obtain ⟨before, bad, after, rfl, clean, last⟩ := ih rejected
        refine ⟨symbol :: before, bad, after, rfl, ?_, ?_⟩
        · simpa only [Clean, head] using clean
        · simpa only [deliver, head] using last
      · rename_i next head
        exact ⟨[], symbol, buffer, rfl, trivial, by simp [deliver, head]⟩

/-- A buffer whose first rejected symbol is known is given up there. -/
theorem deliver_rejected {state next : State} {before after : List Symbol}
    {symbol : Symbol} (clean : scanner.Clean state before)
    (rejected : scanner.step (scanner.deliver state before).1 symbol =
      (next, .invalid)) :
    scanner.deliver state (before ++ symbol :: after) =
      (next, (scanner.deliver state before).2) := by
  rw [deliver_append clean]
  simp [deliver, rejected]

/-! ## Whole words -/

theorem ReadsWhole.deliver_fst {state : State} {text : List Symbol}
    (whole : scanner.ReadsWhole state text) :
    (scanner.deliver state text).1 = scanner.start := by
  induction whole with
  | between => rfl
  | word accepted _ ih => rw [deliver_of_accepts accepted, ih]

theorem ReadsWhole.clean {state : State} {text : List Symbol}
    (whole : scanner.ReadsWhole state text) : scanner.Clean state text := by
  induction whole with
  | between => trivial
  | word accepted _ ih => exact clean_of_accepts accepted ih

/-- Where no word in progress stands in the starting state, a clean text that
leads there consists of whole words. -/
theorem readsWhole_of_clean
    (leaves : ∀ state symbol, (scanner.step state symbol).2 = .incomplete →
      (scanner.step state symbol).1 ≠ scanner.start)
    {state : State} {text : List Symbol} (clean : scanner.Clean state text)
    (atStart : (scanner.deliver state text).1 = scanner.start) :
    scanner.ReadsWhole state text := by
  induction text generalizing state with
  | nil =>
      simp only [deliver] at atStart
      subst atStart
      exact .between
  | cons symbol text ih =>
      simp only [Clean] at clean
      simp only [deliver] at atStart
      split at clean
      · rename_i next head
        simp only [head] at atStart
        cases ih clean atStart with
        | between =>
            exact absurd (by rw [head]) (leaves state symbol (by rw [head]))
        | word accepted rest =>
            have inside : scanner.advance state [symbol] = some next := by
              simp [advance, head]
            exact .word (accepts_of_advance inside accepted) rest
      · rename_i next head
        simp only [head] at atStart
        exact .word (accepts_singleton head) (ih clean atStart)
      · exact clean.elim

/-! ## Successive buffers -/

/-- A clean stream is delivered alike however it is cut. -/
theorem deliverAll_of_clean {state : State} {buffers : List (List Symbol)}
    (clean : scanner.Clean state buffers.flatten) :
    scanner.deliverAll state buffers =
      scanner.deliver state buffers.flatten := by
  induction buffers generalizing state with
  | nil => rfl
  | cons buffer buffers ih =>
      rw [List.flatten_cons, clean_append] at clean
      rw [List.flatten_cons, deliver_append clean.1, deliverAll, ih clean.2]

theorem deliverAll_append (state : State) (first second : List (List Symbol)) :
    scanner.deliverAll state (first ++ second) =
      ((scanner.deliverAll (scanner.deliverAll state first).1 second).1,
        (scanner.deliverAll state first).2 ++
          (scanner.deliverAll (scanner.deliverAll state first).1 second).2) := by
  induction first generalizing state with
  | nil => simp [deliverAll]
  | cons buffer first ih => simp [deliverAll, ih]

/-- Framing: a stream of accepted words yields the result of each word, in
order, under every cutting. -/
theorem deliverAll_words {words : List (List Symbol)} {finals : List State}
    (accepted : List.Forall₂ (scanner.Accepts scanner.start) words finals)
    {buffers : List (List Symbol)} (cut : buffers.flatten = words.flatten) :
    scanner.deliverAll scanner.start buffers =
      (scanner.start, finals.map scanner.result) := by
  have whole : scanner.Clean scanner.start words.flatten ∧
      scanner.deliver scanner.start words.flatten =
        (scanner.start, finals.map scanner.result) := by
    clear cut
    induction accepted with
    | nil => exact ⟨trivial, rfl⟩
    | cons head _ ih =>
        rw [List.flatten_cons]
        refine ⟨clean_of_accepts head ih.1, ?_⟩
        rw [deliver_of_accepts head, ih.2]
        rfl
  rw [deliverAll_of_clean (by rw [cut]; exact whole.1), cut, whole.2]

/-- The stream read one symbol at a time, which is the cutting that never
leaves a symbol unread. -/
def deliverEach (scanner : Scanner State Symbol Result) (state : State)
    (stream : List Symbol) : State × List Result :=
  scanner.deliverAll state (stream.map fun symbol => [symbol])

theorem deliverEach_of_clean {state : State} {stream : List Symbol}
    (clean : scanner.Clean state stream) :
    scanner.deliverEach state stream = scanner.deliver state stream := by
  have flat : (stream.map fun symbol => [symbol]).flatten = stream := by
    rw [← List.flatMap_def, List.flatMap_singleton']
  rw [deliverEach, deliverAll_of_clean (by rwa [flat]), flat]

theorem deliver_eq_deliverEach {state : State} {buffer : List Symbol}
    (clean : scanner.Clean state buffer.dropLast) :
    scanner.deliver state buffer = scanner.deliverEach state buffer := by
  rcases List.eq_nil_or_concat' buffer with rfl | ⟨body, last, rfl⟩
  · rfl
  · rw [List.dropLast_concat] at clean
    have each := deliverEach_of_clean clean
    rw [deliverEach] at each ⊢
    rw [deliver_append clean, List.map_append, deliverAll_append, each]
    simp [deliverAll]

/-- Buffers that leave nothing unread deliver the stream itself. -/
theorem deliverAll_of_tidy {state : State} {buffers : List (List Symbol)}
    (tidy : scanner.Tidy state buffers) :
    scanner.deliverAll state buffers =
      scanner.deliverEach state buffers.flatten := by
  induction buffers generalizing state with
  | nil => rfl
  | cons buffer buffers ih =>
      obtain ⟨head, rest⟩ := tidy
      rw [deliverAll, ih rest, List.flatten_cons, deliver_eq_deliverEach head]
      simp only [deliverEach, List.map_append, deliverAll_append]

/-! ## Invariants -/

/-- An invariant of the states between buffers, and what it makes of every
result that is emitted. -/
theorem deliver_invariant {Good : State → Prop} {Fine : Result → Prop}
    (start : Good scanner.start)
    (keeps : ∀ state symbol, Good state →
      (scanner.step state symbol).2 ≠ .complete →
        Good (scanner.step state symbol).1)
    (emits : ∀ state symbol, Good state →
      (scanner.step state symbol).2 = .complete →
        Fine (scanner.result (scanner.step state symbol).1))
    {state : State} (good : Good state) (buffer : List Symbol) :
    Good (scanner.deliver state buffer).1 ∧
      ∀ emitted ∈ (scanner.deliver state buffer).2, Fine emitted := by
  induction buffer generalizing state with
  | nil => exact ⟨good, by simp [deliver]⟩
  | cons symbol buffer ih =>
      have kept := keeps state symbol good
      have emitted := emits state symbol good
      simp only [deliver]
      split <;> rename_i head <;> simp only [head] at kept emitted
      · exact ih (kept (by simp))
      · refine ⟨(ih start).1, ?_⟩
        intro result member
        rcases List.mem_cons.mp member with rfl | later
        · exact emitted trivial
        · exact (ih start).2 result later
      · exact ⟨kept (by simp), by simp⟩

theorem deliverAll_invariant {Good : State → Prop} {Fine : Result → Prop}
    (start : Good scanner.start)
    (keeps : ∀ state symbol, Good state →
      (scanner.step state symbol).2 ≠ .complete →
        Good (scanner.step state symbol).1)
    (emits : ∀ state symbol, Good state →
      (scanner.step state symbol).2 = .complete →
        Fine (scanner.result (scanner.step state symbol).1))
    {state : State} (good : Good state) (buffers : List (List Symbol)) :
    Good (scanner.deliverAll state buffers).1 ∧
      ∀ emitted ∈ (scanner.deliverAll state buffers).2, Fine emitted := by
  induction buffers generalizing state with
  | nil => exact ⟨good, by simp [deliverAll]⟩
  | cons buffer buffers ih =>
      obtain ⟨between, fine⟩ :=
        deliver_invariant start keeps emits good buffer
      obtain ⟨last, later⟩ := ih between
      refine ⟨last, ?_⟩
      intro result member
      rcases List.mem_append.mp member with now | after
      · exact fine result now
      · exact later result after

theorem deliverAll_keeps {Good : State → Prop}
    (start : Good scanner.start)
    (keeps : ∀ state symbol, Good state →
      (scanner.step state symbol).2 ≠ .complete →
        Good (scanner.step state symbol).1)
    {state : State} (good : Good state) (buffers : List (List Symbol)) :
    Good (scanner.deliverAll state buffers).1 :=
  (@deliverAll_invariant State Symbol Result scanner Good (fun _ => True)
    start keeps (fun _ _ _ _ => trivial) state good buffers).1

/-! ## The symbols that are read -/

/-- A rejected symbol leaves the state as it was. -/
def Undisturbed (scanner : Scanner State Symbol Result) : Prop :=
  ∀ state symbol next, scanner.step state symbol = (next, .invalid) →
    next = state

/-- The symbols of a buffer before the one that is rejected. -/
def kept (scanner : Scanner State Symbol Result) :
    State → List Symbol → List Symbol
  | _, [] => []
  | state, symbol :: rest =>
      match scanner.step state symbol with
      | (next, .incomplete) => symbol :: kept scanner next rest
      | (_, .complete) => symbol :: kept scanner scanner.start rest
      | (_, .invalid) => []

/-- The symbols of successive buffers that are neither rejected nor left
unread. -/
def keptAll (scanner : Scanner State Symbol Result) :
    State → List (List Symbol) → List Symbol
  | _, [] => []
  | state, buffer :: buffers =>
      scanner.kept state buffer ++
        keptAll scanner (scanner.deliver state buffer).1 buffers

theorem kept_isPrefix (state : State) (buffer : List Symbol) :
    scanner.kept state buffer <+: buffer := by
  induction buffer generalizing state with
  | nil => exact List.prefix_rfl
  | cons symbol buffer ih =>
      simp only [kept]
      split
      · exact (List.cons_prefix_cons).mpr ⟨rfl, ih _⟩
      · exact (List.cons_prefix_cons).mpr ⟨rfl, ih _⟩
      · exact List.nil_prefix

theorem kept_clean (state : State) (buffer : List Symbol) :
    scanner.Clean state (scanner.kept state buffer) := by
  induction buffer generalizing state with
  | nil => trivial
  | cons symbol buffer ih =>
      simp only [kept]
      split
      · rename_i next head
        simpa only [Clean, head] using ih next
      · rename_i next head
        simpa only [Clean, head] using ih scanner.start
      · trivial

theorem deliver_kept (undisturbed : scanner.Undisturbed) (state : State)
    (buffer : List Symbol) :
    scanner.deliver state (scanner.kept state buffer) =
      scanner.deliver state buffer := by
  induction buffer generalizing state with
  | nil => rfl
  | cons symbol buffer ih =>
      simp only [kept]
      split
      · rename_i next head
        simpa only [deliver, head] using ih next
      · rename_i next head
        simp only [deliver, head, ih scanner.start]
      · rename_i next head
        obtain rfl := undisturbed state symbol next head
        simp only [deliver, head]

theorem length_keptAll_le (state : State) (buffers : List (List Symbol)) :
    (scanner.keptAll state buffers).length ≤ buffers.flatten.length := by
  induction buffers generalizing state with
  | nil => exact Nat.zero_le _
  | cons buffer buffers ih =>
      have here : scanner.kept state buffer <+: buffer :=
        kept_isPrefix state buffer
      have shorter := here.length_le
      have later := ih (scanner.deliver state buffer).1
      simp only [keptAll, List.flatten_cons, List.length_append]
      omega

/-- What is kept of successive buffers is a clean stream that is delivered
alike. -/
theorem keptAll_spec (undisturbed : scanner.Undisturbed) (state : State)
    (buffers : List (List Symbol)) :
    scanner.Clean state (scanner.keptAll state buffers) ∧
      scanner.deliver state (scanner.keptAll state buffers) =
        scanner.deliverAll state buffers := by
  induction buffers generalizing state with
  | nil => exact ⟨trivial, rfl⟩
  | cons buffer buffers ih =>
      obtain ⟨laterClean, laterEq⟩ := ih (scanner.deliver state buffer).1
      have head := deliver_kept undisturbed state buffer
      have clean : scanner.Clean state (scanner.kept state buffer) :=
        kept_clean state buffer
      constructor
      · rw [keptAll, clean_append, head]
        exact ⟨clean, laterClean⟩
      · rw [keptAll, deliver_append clean, head, laterEq]
        rfl

/-- A clean text either stays inside the word in progress, or consists of the
rest of that word, of whole words and of the beginning of one. -/
theorem clean_cases {state : State} {text : List Symbol}
    (clean : scanner.Clean state text) :
    (∃ next, scanner.advance state text = some next) ∨
      ∃ word final words finals unfinished next,
        text = word ++ (words.flatten ++ unfinished) ∧
          scanner.Accepts state word final ∧
          List.Forall₂ (scanner.Accepts scanner.start) words finals ∧
          scanner.advance scanner.start unfinished = some next := by
  induction text generalizing state with
  | nil => exact Or.inl ⟨state, rfl⟩
  | cons symbol text ih =>
      simp only [Clean] at clean
      split at clean
      · rename_i next head
        rcases ih clean with ⟨last, inside⟩ |
          ⟨word, final, words, finals, unfinished, last, rfl, accepted, rest⟩
        · exact Or.inl ⟨last, advance_cons head inside⟩
        · have inside : scanner.advance state [symbol] = some next :=
            advance_cons head rfl
          exact Or.inr ⟨symbol :: word, final, words, finals, unfinished, last,
            rfl, accepts_of_advance inside accepted, rest⟩
      · rename_i final head
        have accepted := accepts_singleton head
        rcases ih clean with ⟨last, inside⟩ |
          ⟨word, second, words, finals, unfinished, last, rfl, next, later, rest⟩
        · exact Or.inr ⟨[symbol], final, [], [], text, last, rfl, accepted,
            .nil, inside⟩
        · exact Or.inr ⟨[symbol], final, word :: words, second :: finals,
            unfinished, last, by simp, accepted, .cons next later, rest⟩
      · exact clean.elim

/-- A clean stream from the starting state consists of whole words and of the
beginning of one. -/
theorem exists_words_of_clean {text : List Symbol}
    (clean : scanner.Clean scanner.start text) :
    ∃ words finals unfinished next,
      text = words.flatten ++ unfinished ∧
        List.Forall₂ (scanner.Accepts scanner.start) words finals ∧
        scanner.advance scanner.start unfinished = some next := by
  rcases clean_cases clean with ⟨next, inside⟩ |
    ⟨word, final, words, finals, unfinished, next, rfl, accepted, later, rest⟩
  · exact ⟨[], [], text, next, rfl, .nil, inside⟩
  · exact ⟨word :: words, final :: finals, unfinished, next, by simp,
      .cons accepted later, rest⟩

theorem deliver_of_advance {state next : State} {text : List Symbol}
    (inside : scanner.advance state text = some next) :
    scanner.deliver state text = (next, []) := by
  induction text generalizing state with
  | nil => exact Prod.ext (Option.some.inj inside) rfl
  | cons symbol text ih =>
      simp only [advance] at inside
      split at inside
      · rename_i middle head
        simpa only [deliver, head] using ih inside
      · simp at inside

/-- Whole words and the beginning of one are delivered as the results of the
words. -/
theorem deliver_words {words : List (List Symbol)} {finals : List State}
    (accepted : List.Forall₂ (scanner.Accepts scanner.start) words finals)
    {unfinished : List Symbol} {next : State}
    (inside : scanner.advance scanner.start unfinished = some next) :
    scanner.deliver scanner.start (words.flatten ++ unfinished) =
      (next, finals.map scanner.result) := by
  induction accepted with
  | nil => exact deliver_of_advance inside
  | cons head _ ih =>
      rw [List.flatten_cons, List.append_assoc, deliver_of_accepts head, ih]
      rfl

/-- A stream that breaks off inside of accepted words yields the results of the
first of them, under every cutting. -/
theorem deliverAll_prefix {words : List (List Symbol)} {finals : List State}
    (accepted : List.Forall₂ (scanner.Accepts scanner.start) words finals)
    {buffers : List (List Symbol)} (cut : buffers.flatten <+: words.flatten) :
    (scanner.deliverAll scanner.start buffers).2 <+:
      finals.map scanner.result := by
  obtain ⟨rest, whole⟩ := cut
  have delivered : scanner.deliver scanner.start words.flatten =
      (scanner.start, finals.map scanner.result) := by
    simpa using deliver_words accepted (rfl : scanner.advance _ [] = _)
  have clean : scanner.Clean scanner.start words.flatten := by
    clear delivered whole
    induction accepted with
    | nil => trivial
    | cons head _ ih => exact clean_of_accepts head ih
  rw [← whole, clean_append] at clean
  rw [← whole, deliver_append clean.1] at delivered
  rw [deliverAll_of_clean clean.1]
  exact ⟨_, congrArg Prod.snd delivered⟩

end Scanner

end IncrementalScanner
