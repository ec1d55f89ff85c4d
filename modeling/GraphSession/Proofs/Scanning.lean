import Mathlib.Tactic.SplitIfs
import GraphSession.Proofs.Numerals
import GraphSession.Value.Json

/-!
  What the scanner scans.

  A compact text is scanned piece by piece.  Words and numerals have no end of their own, so a piece
  is scanned as its tokens (`Scans`) if the text ends after it or a mark follows, and pieces are put
  together at marks.  A string is scanned character by character, whichever way each is written.
  The other way round, every scalar that is scanned is sound, since a number is read off a numeral.
-/

namespace GraphSession.Json

/-- The text ends, or a mark ends what stands before it. -/
def Stops : List Char → Prop
  | [] => True
  | c :: _ => c = ',' ∨ c = ':' ∨ c = ']' ∨ c = '\x7d'

/-- Characters that are scanned as these tokens, if they are not continued. -/
def Scans (cs : List Char) (ts : List Token) : Prop :=
  ∀ rest, Stops rest → Scan.run? .between (cs ++ rest) = (Scan.run? .between rest).map (ts ++ ·)

namespace Scan

variable {c : Char} {cs rest read : List Char}

theorem run?_cons (state : Scan) (c : Char) (cs : List Char) : run? state (c :: cs) =
    (state.step? c).bind fun r => (run? r.2 cs).map (r.1 ++ ·) := by
  rw [run?]
  cases state.step? c with
  | none => rfl
  | some r => cases h : run? r.2 cs <;> simp [h]

/-- A mark is a token of its own, and part of neither a word nor a numeral. -/
theorem start?_stop (stops : Stops (c :: rest)) :
    ∃ t, start? c = some ([t], between) ∧ c.isAlpha = false ∧ isNumeralChar c = false := by
  rcases stops with rfl | rfl | rfl | rfl
  · exact ⟨.comma, rfl, rfl, rfl⟩
  · exact ⟨.colon, rfl, rfl, rfl⟩
  · exact ⟨.closeList, rfl, rfl, rfl⟩
  · exact ⟨.closeMap, rfl, rfl, rfl⟩

/-- What is pending in a state becomes a token as soon as the text or a mark ends it. -/
theorem run?_pending {state : Scan} {pending : Option Json}
    (finish : state.finish? = pending.map fun j => [.scalar j])
    (step : ∀ c r, start? c = some r → c.isAlpha = false → isNumeralChar c = false →
      state.step? c = pending.map fun j => (.scalar j :: r.1, r.2)) (stops : Stops rest) :
    run? state rest = pending.bind fun j => (run? between rest).map (.scalar j :: ·) := by
  cases rest with
  | nil =>
    rw [run?, finish]
    cases pending <;> rfl
  | cons c rest =>
    obtain ⟨t, starts, letter, numeral⟩ := start?_stop stops
    rw [run?_cons, run?_cons, step c _ starts letter numeral, step?, starts]
    cases pending with
    | none => rfl
    | some j => cases h : run? between rest <;> simp [h]

/-- A character that completes no token moves the scanner on. -/
theorem run?_silent {state next : Scan} (steps : state.step? c = some ([], next)) :
    run? state (c :: cs) = run? next cs := by
  rw [run?_cons, steps, Option.bind_some]
  cases run? next cs <;> simp

theorem run?_word (stops : Stops rest) : run? (word read) rest =
    (word? read.reverse).bind fun j => (run? between rest).map (.scalar j :: ·) := by
  refine run?_pending rfl (fun c r starts letter _ => ?_) stops
  rw [step?, letter, starts]
  cases word? read.reverse <;> rfl

theorem run?_numeral (stops : Stops rest) : run? (numeral read) rest =
    (number? read.reverse).bind fun j => (run? between rest).map (.scalar j :: ·) := by
  refine run?_pending ?_ (fun c r starts _ numeral => ?_) stops
  · rw [finish?, number?]
    cases Numeral.ofChars? read.reverse with
    | none => rfl
    | some n => cases h : n.toJson? <;> simp [h]
  · rw [step?, numeral, starts, number?]
    cases Numeral.ofChars? read.reverse with
    | none => rfl
    | some n => cases h : n.toJson? <;> simp [h]

theorem start?_number (first : c.isDigit = true ∨ c = '-') :
    start? c = some ([], numeral [c]) := by
  have apart (d : Char) (other : ¬ (d.isDigit = true ∨ d = '-')) : c ≠ d :=
    fun same => other (same ▸ first)
  simp [start?, apart ' ' (by decide), apart '\n' (by decide), apart '\t' (by decide),
    apart '\r' (by decide), apart '[' (by decide), apart ']' (by decide),
    apart '\x7b' (by decide), apart '\x7d' (by decide), apart ',' (by decide),
    apart ':' (by decide), apart '"' (by decide), first]

/-- Characters that a state takes in, each before those it has. -/
theorem run?_taken (state : List Char → Scan)
    (takes : ∀ c ∈ cs, ∀ read, (state read).step? c = some ([], state (c :: read))) :
    run? (state read) (cs ++ rest) = run? (state (cs.reverse ++ read)) rest := by
  induction cs generalizing read with
  | nil => rfl
  | cons c cs ih =>
    obtain ⟨first, others⟩ := List.forall_mem_cons.mp takes
    rw [List.cons_append, run?_silent (first read), ih others, List.reverse_cons,
      List.append_assoc, List.singleton_append]

end Scan

/-- A numeral is scanned as the number that it is. -/
theorem run?_isNumeral {cs rest : List Char} (numeral : IsNumeral cs) (stops : Stops rest) :
    Scan.run? .between (cs ++ rest) =
      (number? cs).bind fun j => (Scan.run? .between rest).map (.scalar j :: ·) := by
  obtain ⟨c, ds, rfl, first, numerals⟩ := numeral
  have starts : Scan.step? .between c = some ([], .numeral [c]) := Scan.start?_number first
  rw [List.cons_append, Scan.run?_silent starts,
    Scan.run?_taken .numeral (fun d mem _ => if_pos (numerals d mem)), Scan.run?_numeral stops,
    List.reverse_append, List.reverse_reverse, List.reverse_singleton, List.singleton_append]

theorem scans_number {cs : List Char} {j : Json} (numeral : IsNumeral cs)
    (number : number? cs = some j) : Scans cs [.scalar j] := by
  intro rest stops
  rw [run?_isNumeral numeral stops, number, Option.bind_some]
  rfl

/-- A word is scanned as the document that it names. -/
theorem scans_word {c : Char} {cs : List Char} {j : Json}
    (first : Scan.step? .between c = some ([], .word [c])) (letters : cs.all Char.isAlpha = true)
    (word : Scan.word? (c :: cs) = some j) : Scans (c :: cs) [.scalar j] := by
  intro rest stops
  rw [List.cons_append, Scan.run?_silent first,
    Scan.run?_taken .word (fun d mem _ => if_pos (List.all_eq_true.mp letters d mem)),
    Scan.run?_word stops, List.reverse_append, List.reverse_reverse, List.reverse_singleton,
    List.singleton_append, word, Option.bind_some]
  rfl

theorem scans_null : Scans "null".toList [.scalar .null] :=
  scans_word rfl rfl rfl

theorem scans_boolean (b : Bool) :
    Scans (if b then "true" else "false").toList [.scalar (.boolean b)] := by
  cases b with
  | true => exact scans_word rfl rfl rfl
  | false => exact scans_word rfl rfl rfl

/-! ## Strings -/

namespace Scan

variable {c : Char} {cs rest read : List Char}

theorem hexNumeral_low (n : Nat) (low : n < 0x20) : Text.hexNumeral 4 n =
    ['0', '0', Text.hexDigit (n / 16), Text.hexDigit (n % 16)] := by
  revert n
  decide

theorem hexValue?_hexDigit (n : Nat) (low : n < 16) : hexValue? (Text.hexDigit n) = some n := by
  revert n
  decide

theorem step?_hex {high : Option Nat} {count value n : Nat} (low : n < 16) (early : count ≠ 3) :
    step? (.hex read ⟨high, count, value⟩) (Text.hexDigit n) =
      some ([], .hex read ⟨high, count + 1, value * 16 + n⟩) := by
  rw [step?, hexValue?_hexDigit n low]
  exact if_neg early

/-- An escaped control character is read. -/
theorem run?_hex (n : Nat) (low : n < 0x20) :
    run? (.hex read ⟨none, 0, 0⟩) (Text.hexNumeral 4 n ++ rest) =
      run? (.text (Char.ofNat n :: read)) rest := by
  rw [hexNumeral_low n low, List.cons_append, List.cons_append, List.cons_append, List.cons_append,
    List.nil_append]
  have zero : '0' = Text.hexDigit 0 := rfl
  rw [zero, run?_silent (step?_hex (by decide) (by decide)),
    run?_silent (step?_hex (by decide) (by decide)),
    run?_silent (step?_hex (by omega) (by decide))]
  have last : step? (.hex read ⟨none, 3, n / 16⟩) (Text.hexDigit (n % 16)) =
      some ([], .text (Char.ofNat n :: read)) := by
    rw [step?, hexValue?_hexDigit _ (Nat.mod_lt n (by decide))]
    show (escaped? read none (n / 16 * 16 + n % 16)).map (fun next => ([], next)) = _
    rw [Nat.div_add_mod', escaped?]
    simp only [show ¬ (0xD800 ≤ n) by omega, show ¬ (0xDC00 ≤ n) by omega, decide_false,
      Bool.false_and, Bool.false_eq_true, if_false]
    rfl
  rw [Nat.zero_mul, Nat.zero_add, Nat.zero_add, run?_silent last]

/-- A character of a string is read, whichever way it is written. -/
theorem run?_jsonChar : run? (.text read) (Text.jsonChar c ++ rest) =
    run? (.text (c :: read)) rest := by
  have short {e : Char} (escape : shortEscape? e = some c) :
      run? (.text read) ('\\' :: e :: rest) = run? (.text (c :: read)) rest := by
    have plain : e ≠ 'u' := fun same => by rw [same] at escape; cases escape
    have steps : step? (.backslash read) e = some ([], .text (c :: read)) := by
      rw [step?, if_neg plain, escape, Option.map_some]
    rw [run?_silent rfl, run?_silent steps]
  unfold Text.jsonChar
  split_ifs with quote slash b f n r t low
  · subst quote
    exact short rfl
  · subst slash
    exact short rfl
  · exact short (congrArg some ((congrArg Char.ofNat b.symm).trans (Char.ofNat_toNat c)))
  · exact short (congrArg some ((congrArg Char.ofNat f.symm).trans (Char.ofNat_toNat c)))
  · subst n
    exact short rfl
  · subst r
    exact short rfl
  · subst t
    exact short rfl
  · rw [List.append_assoc]
    have back : step? (.text read) '\\' = some ([], .backslash read) := rfl
    have mark : step? (.backslash read) 'u' = some ([], .hex read ⟨none, 0, 0⟩) := rfl
    rw [List.cons_append, List.cons_append, List.nil_append, run?_silent back, run?_silent mark,
      run?_hex _ low, Char.ofNat_toNat]
  · have steps : step? (.text read) c = some ([], .text (c :: read)) := by
      rw [step?, if_neg quote, if_neg slash, if_neg low]
    exact run?_silent steps

/-- A string is scanned as that string. -/
theorem run?_string (s : String) : run? .between (Text.jsonChars s.toList ++ rest) =
    (run? .between rest).map (.scalar (.string s) :: ·) := by
  have inside (cs read : List Char) : run? (.text read) (cs.flatMap Text.jsonChar ++ '"' :: rest) =
      (run? .between rest).map (.scalar (.string (String.ofList (read.reverse ++ cs))) :: ·) := by
    induction cs generalizing read with
    | nil =>
      rw [List.append_nil, List.flatMap_nil, List.nil_append, run?_cons]
      rfl
    | cons c cs ih =>
      rw [List.flatMap_cons, List.append_assoc, run?_jsonChar, ih, List.reverse_cons,
        List.append_assoc, List.singleton_append]
  rw [Text.jsonChars, List.cons_append, List.cons_append, List.append_assoc, List.singleton_append,
    run?_silent rfl, inside, List.reverse_nil, List.nil_append, String.ofList_toList]

end Scan

theorem scans_string (s : String) : Scans (Text.jsonChars s.toList) [.scalar (.string s)] :=
  fun _ _ => Scan.run?_string s

/-! ## Lists and maps -/

theorem scans_nil : Scans [] [] := fun rest _ => by
  cases h : Scan.run? .between rest <;> simp [h]

theorem scans_mark {c : Char} {t : Token} {cs : List Char} {ts : List Token}
    (mark : Scan.start? c = some ([t], .between)) (scans : Scans cs ts) :
    Scans (c :: cs) (t :: ts) := by
  intro rest stops
  rw [List.cons_append, Scan.run?_cons, Scan.step?, mark, Option.bind_some, scans rest stops]
  cases Scan.run? .between rest <;> simp

/-- A mark ends what stands before it. -/
theorem Scans.append {c : Char} {cs ds : List Char} {ts us : List Token} (h : Scans cs ts)
    (more : Scans (c :: ds) us) (stop : Stops [c]) : Scans (cs ++ c :: ds) (ts ++ us) := by
  intro rest stops
  have stop : Stops (c :: ds ++ rest) := stop
  rw [List.append_assoc, h _ stop, more rest stops]
  cases Scan.run? .between rest <;> simp

section

variable {α : Type} {f : α → List Char} {g : α → List Token} {xs : List α}

theorem scans_separated (each : ∀ x ∈ xs, Scans (f x) (g x)) :
    Scans ([','].intercalate (xs.map f)) ([.comma].intercalate (xs.map g)) := by
  induction xs with
  | nil => exact scans_nil
  | cons x xs ih =>
    obtain ⟨scans, each⟩ := List.forall_mem_cons.mp each
    cases xs with
    | nil =>
      rw [List.map_singleton, List.map_singleton, List.intercalate_singleton,
        List.intercalate_singleton]
      exact scans
    | cons y ys =>
      rw [List.map_cons, List.map_cons, List.intercalate_cons_cons, List.append_assoc,
        List.map_cons, List.map_cons, List.intercalate_cons_cons, List.append_assoc]
      exact scans.append (scans_mark rfl (ih each)) (.inl rfl)

theorem scans_list (each : ∀ x ∈ xs, Scans (f x) (g x)) :
    Scans (Value.enclose '[' ']' (xs.map f))
      (.openList :: [.comma].intercalate (xs.map g) ++ [.closeList]) :=
  scans_mark rfl ((scans_separated each).append (scans_mark rfl scans_nil) (.inr (.inr (.inl rfl))))

theorem scans_map (each : ∀ x ∈ xs, Scans (f x) (g x)) :
    Scans (Value.enclose '\x7b' '\x7d' (xs.map f))
      (.openMap :: [.comma].intercalate (xs.map g) ++ [.closeMap]) :=
  scans_mark rfl ((scans_separated each).append (scans_mark rfl scans_nil) (.inr (.inr (.inr rfl))))

end

/-- An entry of a map. -/
theorem scans_entry {name : String} {cs : List Char} {j : Json} (scans : Scans cs j.tokens) :
    Scans (Text.jsonChars name.toList ++ ':' :: cs) (entry (name, j)) :=
  (scans_string name).append (scans_mark rfl scans) (.inr (.inl rfl))

/-! ## What is scanned -/

namespace Scan

variable {state next : Scan} {c : Char} {cs : List Char} {ts : List Token} {j : Json}

theorem no_scalar_start? (steps : start? c = some (ts, next)) : .scalar j ∉ ts := by
  unfold start? at steps
  split_ifs at steps <;> cases steps <;> simp

theorem sound_word? (word : word? cs = some j) : j.Sound := by
  unfold word? at word
  split_ifs at word <;> cases word <;> trivial

/-- What was pending is the one scalar that a mark completes. -/
theorem sound_pending {pending : Option Json} (sound : ∀ i, pending = some i → i.Sound)
    (steps : (pending.bind fun i => (start? c).bind fun r => some (.scalar i :: r.1, r.2)) =
      some (ts, next)) (mem : .scalar j ∈ ts) : j.Sound := by
  obtain ⟨i, found, steps⟩ := Option.bind_eq_some_iff.mp steps
  obtain ⟨r, starts, steps⟩ := Option.bind_eq_some_iff.mp steps
  cases steps
  rcases List.mem_cons.mp mem with same | mem
  · cases same
    exact sound j found
  · exact absurd mem (no_scalar_start? starts)

theorem sound_step? (steps : state.step? c = some (ts, next)) (mem : .scalar j ∈ ts) :
    j.Sound := by
  cases state with
  | between => exact absurd mem (no_scalar_start? steps)
  | word read =>
    rw [step?] at steps
    split_ifs at steps
    · cases steps
      cases mem
    · exact sound_pending (fun _ => sound_word?) steps mem
  | numeral read =>
    rw [step?] at steps
    split_ifs at steps
    · cases steps
      cases mem
    · obtain ⟨n, parts, steps⟩ := Option.bind_eq_some_iff.mp steps
      exact sound_pending (fun _ => sound_toJson?) steps mem
  | text read =>
    rw [step?] at steps
    split_ifs at steps <;> cases steps
    · cases List.mem_singleton.mp mem
      trivial
    · cases mem
    · cases mem
  | backslash read =>
    rw [step?] at steps
    split_ifs at steps
    · cases steps
      cases mem
    · obtain ⟨e, -, steps⟩ := Option.map_eq_some_iff.mp steps
      cases steps
      cases mem
  | hex read e =>
    obtain ⟨digit, -, steps⟩ := Option.bind_eq_some_iff.mp steps
    dsimp only at steps
    split_ifs at steps
    · obtain ⟨r, -, steps⟩ := Option.map_eq_some_iff.mp steps
      cases steps
      cases mem
    · cases steps
      cases mem
  | pairBackslash read high =>
    rw [step?] at steps
    split_ifs at steps
    cases steps
    cases mem
  | pairMark read high =>
    rw [step?] at steps
    split_ifs at steps
    cases steps
    cases mem

theorem sound_finish? (finish : state.finish? = some ts) (mem : .scalar j ∈ ts) : j.Sound := by
  cases state with
  | between =>
    cases finish
    cases mem
  | word read =>
    obtain ⟨i, word, rfl⟩ := Option.map_eq_some_iff.mp finish
    cases List.mem_singleton.mp mem
    exact sound_word? word
  | numeral read =>
    obtain ⟨n, parts, finish⟩ := Option.bind_eq_some_iff.mp finish
    obtain ⟨i, read, finish⟩ := Option.bind_eq_some_iff.mp finish
    cases finish
    cases List.mem_singleton.mp mem
    exact sound_toJson? read
  | _ => cases finish

/-- Whatever is scanned, its scalars are sound. -/
theorem sound_run? (runs : run? state cs = some ts) (mem : .scalar j ∈ ts) : j.Sound := by
  induction cs generalizing state ts with
  | nil => exact sound_finish? runs mem
  | cons c cs ih =>
    rw [run?_cons] at runs
    obtain ⟨r, steps, runs⟩ := Option.bind_eq_some_iff.mp runs
    obtain ⟨more, scanned, rfl⟩ := Option.map_eq_some_iff.mp runs
    rcases List.mem_append.mp mem with mem | mem
    · exact sound_step? steps mem
    · exact ih scanned mem

end Scan

/-! ## Texts -/

/-- A text that is scanned as the tokens of a document is read as that document, unless it nests too
    deep. -/
theorem parse?_of_scans {cs : List Char} {j : Json} (scans : Scans cs j.tokens) :
    parse? (String.ofList cs) = if j.depth ≤ Reader.depthLimit then some j else none := by
  have tokens : tokens? cs = some j.tokens := by
    have := scans [] trivial
    rw [List.append_nil] at this
    rw [tokens?, this]
    simp [Scan.run?, Scan.finish?]
  rw [parse?, String.toList_ofList, tokens, Option.bind_some, Reader.run?_tokens]

/-- A numeral is read as the number that it is. -/
theorem parse?_isNumeral {cs : List Char} (numeral : IsNumeral cs) :
    parse? (String.ofList cs) = number? cs := by
  have scanned := @run?_isNumeral cs [] numeral trivial
  rw [List.append_nil] at scanned
  rw [parse?, String.toList_ofList, tokens?, scanned]
  cases number? cs <;> rfl

/-- What is read from a text does not nest too deep, and its scalars are sound. -/
theorem sound_of_parse? {text : String} {j : Json} (parsed : parse? text = some j) :
    j.depth ≤ Reader.depthLimit ∧ ∀ i, .scalar i ∈ j.tokens → i.Sound := by
  obtain ⟨ts, scanned, read⟩ := Option.bind_eq_some_iff.mp parsed
  have sound : ∀ i, .scalar i ∈ ts → i.Sound := fun i mem => Scan.sound_run? scanned mem
  obtain ⟨rfl, fits⟩ := (Reader.run?_eq_some_iff fun i mem => (sound i mem).isScalar).mp read
  exact ⟨fits, sound⟩

end GraphSession.Json
