import CorpusAgent.Json.Finite
import CorpusAgent.Json.Printer
import CorpusAgent.Json.Token
import Mathlib.Data.List.TakeWhile

/-!
# Numerals in JSON text

* `Shape`: the parts of a run of characters that is a numeral.
* `exists_shape`: what can be read as a numeral has these parts.
* `Continues`: the scanner takes all characters of a run into one numeral.
* `scanFrom_numeral`: a numeral is one token, as long as nothing follows that continues it.
* `read_integer`: a 64-bit integer is read back from its text.
* `ReadsBack`: the numbers that are read back from their text.
-/

namespace CorpusAgent.Json

open Token Numeral

/-! ### The parts of a numeral -/

/-- Digits, at least one. -/
def Digits (cs : List Char) : Prop := cs ≠ [] ∧ ∀ c ∈ cs, c.isDigit = true

/-- The exponent of a numeral with its letter, or nothing. -/
def IsExponent (cs : List Char) : Prop :=
  cs = [] ∨ ∃ letter mark digits, cs = letter :: (mark ++ digits) ∧
    (letter = 'e' ∨ letter = 'E') ∧ (mark = [] ∨ mark = ['+'] ∨ mark = ['-']) ∧ Digits digits

/-- The places of a numeral after their point, or nothing. -/
def IsFraction (cs : List Char) : Prop := cs = [] ∨ ∃ places, cs = '.' :: places ∧ Digits places

/-- A run of characters falls into the parts of a numeral. -/
structure Shape (cs sign whole fraction exponent : List Char) : Prop where
  parts : cs = sign ++ (whole ++ (fraction ++ exponent))
  sign : sign = [] ∨ sign = ['-']
  whole : Digits whole
  fraction : IsFraction fraction
  exponent : IsExponent exponent

theorem digits_of_spanDigits {cs digits rest : List Char} (h : spanDigits cs = (digits, rest))
    (hne : digits ≠ []) : Digits digits ∧ cs = digits ++ rest := by
  obtain ⟨rfl, rfl⟩ := Prod.mk.inj h
  exact ⟨⟨hne, fun _ hc => List.mem_takeWhile_imp hc⟩, List.takeWhile_append_dropWhile.symm⟩

theorem digits_of_exponentOf {cs : List Char} {e : Exponent} (h : exponentOf cs = some e) :
    ∃ mark digits, cs = mark ++ digits ∧ (mark = [] ∨ mark = ['+'] ∨ mark = ['-']) ∧
      Digits digits := by
  have hdigits : ∀ {negative : Bool} {digits : List Char},
      (if digits.isEmpty || !digits.all Char.isDigit then none
        else some (⟨negative, digits⟩ : Exponent)) = some e → Digits digits := by
    intro negative digits hif
    split_ifs at hif with hcond
    rw [Bool.or_eq_true, not_or, List.isEmpty_iff, Bool.not_eq_true', Bool.not_eq_false,
      List.all_eq_true] at hcond
    exact hcond
  unfold exponentOf at h
  split at h
  next negative digits hmark =>
  split at hmark
  · obtain ⟨-, rfl⟩ := Prod.mk.inj hmark
    exact ⟨['-'], _, rfl, .inr (.inr rfl), hdigits h⟩
  · obtain ⟨-, rfl⟩ := Prod.mk.inj hmark
    exact ⟨['+'], _, rfl, .inr (.inl rfl), hdigits h⟩
  · obtain ⟨-, rfl⟩ := Prod.mk.inj hmark
    exact ⟨[], _, rfl, .inl rfl, hdigits h⟩

theorem isExponent_of_finish {negative : Bool} {whole cs : List Char}
    {fraction : Option (List Char)} (h : finish negative whole fraction cs ≠ .malformed) :
    IsExponent cs := by
  cases cs with
  | nil => exact .inl rfl
  | cons letter rest =>
    rw [finish] at h
    split at h
    · next hletter =>
      cases he : exponentOf rest with
      | none =>
        rw [he] at h
        exact absurd rfl h
      | some e =>
        obtain ⟨mark, digits, rfl, hmark, hdigits⟩ := digits_of_exponentOf he
        exact .inr ⟨letter, mark, digits, rfl, by simpa using hletter, hmark, hdigits⟩
    · exact absurd rfl h

/-- A run of characters that can be read as a numeral has the parts of one. -/
theorem exists_shape {cs : List Char} (h : Numeral.read cs ≠ .malformed) :
    ∃ sign whole fraction exponent, Shape cs sign whole fraction exponent := by
  unfold Numeral.read at h
  split at h
  next negative body hsign =>
  obtain ⟨sign, hcs, hmark⟩ : ∃ sign, cs = sign ++ body ∧ (sign = [] ∨ sign = ['-']) := by
    split at hsign
    · obtain ⟨-, rfl⟩ := Prod.mk.inj hsign
      exact ⟨['-'], rfl, .inr rfl⟩
    · obtain ⟨-, rfl⟩ := Prod.mk.inj hsign
      exact ⟨[], rfl, .inl rfl⟩
  split at h
  next whole rest hspan =>
  split at h
  · exact absurd rfl h
  · exact absurd rfl h
  next hne _ =>
  obtain ⟨hwhole, hbody⟩ := digits_of_spanDigits hspan fun hnil => hne hnil
  split at h
  · next after =>
    split at h
    next places later hplaces =>
    split at h
    · exact absurd rfl h
    · next hsome =>
      have hne : places ≠ [] := fun hnil => hsome (List.isEmpty_iff.mpr hnil)
      obtain ⟨hdigits, hafter⟩ := digits_of_spanDigits hplaces hne
      refine ⟨sign, whole, '.' :: places, later, ?_, hmark, hwhole, .inr ⟨places, rfl, hdigits⟩,
        isExponent_of_finish h⟩
      rw [hcs, hbody, hafter]
      rfl
  · exact ⟨sign, whole, [], rest, hbody ▸ hcs, hmark, hwhole, .inl rfl, isExponent_of_finish h⟩

/-! ### One token -/

/-- After some characters in reverse, each of the next ones continues a numeral. -/
def Continues : List Char → List Char → Prop
  | _, [] => True
  | seen, c :: rest => continues seen c = true ∧ Continues (c :: seen) rest

theorem continues_append {seen cs ds : List Char} (hc : Continues seen cs)
    (hd : Continues (cs.reverse ++ seen) ds) : Continues seen (cs ++ ds) := by
  induction cs generalizing seen with
  | nil => exact hd
  | cons c cs ih =>
    refine ⟨hc.1, ih hc.2 ?_⟩
    rwa [List.reverse_cons, List.append_assoc] at hd

theorem continues_digits {cs : List Char} (h : ∀ c ∈ cs, c.isDigit = true) (seen : List Char) :
    Continues seen cs := by
  induction cs generalizing seen with
  | nil => trivial
  | cons c cs ih =>
    obtain ⟨hc, hcs⟩ := List.forall_mem_cons.mp h
    exact ⟨if_pos hc, ih hcs _⟩

/-- The last character is a digit. -/
def AfterDigit (seen : List Char) : Prop := seen.head?.any Char.isDigit = true

theorem afterDigit_reverse {cs : List Char} (h : Digits cs) (seen : List Char) :
    AfterDigit (cs.reverse ++ seen) := by
  cases hcs : cs.reverse with
  | nil => exact absurd (List.reverse_eq_nil_iff.mp hcs) h.1
  | cons c rest =>
    have hmem : c ∈ cs := by
      rw [← List.mem_reverse, hcs]
      exact List.mem_cons_self
    exact h.2 c hmem

theorem continues_exponent {seen cs : List Char} (hdigit : AfterDigit seen)
    (hseen : ∀ c ∈ seen, c ≠ 'e' ∧ c ≠ 'E') (h : IsExponent cs) : Continues seen cs := by
  rcases h with rfl | ⟨letter, mark, digits, rfl, hletter, hmark, hdigits⟩
  · trivial
  have hnone : (seen.any fun d => d = 'e' || d = 'E') = false := by
    rw [List.any_eq_false]
    intro c hc
    simpa using hseen c hc
  have hcontinues : continues seen letter = true := by
    rw [AfterDigit] at hdigit
    rcases hletter with rfl | rfl <;> simp [continues, hnone, hdigit]
  have hdigits' : ∀ seen, Continues seen digits := continues_digits hdigits.2
  refine ⟨hcontinues, ?_⟩
  rcases hmark with rfl | rfl | rfl
  · exact hdigits' _
  · refine ⟨?_, hdigits' _⟩
    rcases hletter with rfl | rfl <;> rfl
  · refine ⟨?_, hdigits' _⟩
    rcases hletter with rfl | rfl <;> rfl

theorem continues_fraction {seen cs ds : List Char} (hdigit : AfterDigit seen)
    (hseen : ∀ c ∈ seen, c ≠ '.' ∧ c ≠ 'e' ∧ c ≠ 'E') (h : IsFraction cs) (he : IsExponent ds) :
    Continues seen (cs ++ ds) := by
  rcases h with rfl | ⟨places, rfl, hplaces⟩
  · exact continues_exponent hdigit (fun c hc => (hseen c hc).2) he
  have hnone : (seen.any fun d => d = '.' || d = 'e' || d = 'E') = false := by
    rw [List.any_eq_false]
    intro c hc
    simpa [and_assoc] using hseen c hc
  have hpoint : continues seen '.' = true := by
    rw [AfterDigit] at hdigit
    simp [continues, hnone, hdigit]
  refine ⟨hpoint, continues_append (continues_digits hplaces.2 _) ?_⟩
  refine continues_exponent (afterDigit_reverse hplaces _) (fun c hc => ?_) he
  rcases List.mem_append.mp hc with hc | hc
  · have hdigit := hplaces.2 c (List.mem_reverse.mp hc)
    constructor
    · rintro rfl
      exact absurd hdigit (by decide)
    · rintro rfl
      exact absurd hdigit (by decide)
  · rcases List.mem_cons.mp hc with rfl | hc
    · decide
    · exact (hseen c hc).2

/-- The scanner takes a numeral from its first character on. -/
theorem Shape.continues {cs sign whole fraction exponent : List Char}
    (h : Shape cs sign whole fraction exponent) :
    ∃ c rest, cs = c :: rest ∧ (c = '-' ∨ c.isDigit = true) ∧ Continues [c] rest := by
  obtain ⟨first, more, rfl⟩ := List.exists_cons_of_ne_nil h.whole.1
  obtain ⟨hfirst, hmore⟩ := List.forall_mem_cons.mp h.whole.2
  have hplain : ∀ c : Char, c.isDigit = true ∨ c = '-' → c ≠ '.' ∧ c ≠ 'e' ∧ c ≠ 'E' := by
    rintro c (hc | rfl)
    · refine ⟨?_, ?_, ?_⟩ <;> rintro rfl <;> exact absurd hc (by decide)
    · decide
  have htail : ∀ seen : List Char, (∀ c ∈ seen, c.isDigit = true ∨ c = '-') →
      AfterDigit (more.reverse ++ seen) → Continues seen (more ++ (fraction ++ exponent)) := by
    intro seen hseen hdigit
    refine continues_append (continues_digits hmore _) ?_
    refine continues_fraction hdigit (fun c hc => hplain c ?_) h.fraction h.exponent
    rcases List.mem_append.mp hc with hc | hc
    · exact .inl (hmore c (List.mem_reverse.mp hc))
    · exact hseen c hc
  have hafter : ∀ seen : List Char, AfterDigit (more.reverse ++ (first :: seen)) := by
    intro seen
    have hreverse := afterDigit_reverse h.whole seen
    rwa [List.reverse_cons, List.append_assoc] at hreverse
  rcases h.sign with rfl | rfl
  · refine ⟨first, more ++ (fraction ++ exponent), h.parts, .inr hfirst, ?_⟩
    exact htail _ (List.forall_mem_singleton.mpr (.inl hfirst)) (hafter [])
  · refine ⟨'-', first :: (more ++ (fraction ++ exponent)), h.parts, .inl rfl, if_pos hfirst, ?_⟩
    exact htail _ (List.forall_mem_cons.mpr ⟨.inl hfirst, List.forall_mem_singleton.mpr (.inr rfl)⟩)
      (hafter ['-'])

/-- What follows a value within a list or an object, or at the end. -/
def Ends (rest : List Char) : Prop := ∀ c ∈ rest.head?, c = ',' ∨ c = ']' ∨ c = '\x7d'

theorem scanFrom_cons (m : Token.Mode) (c : Char) (rest : List Char) :
    scanFrom m (c :: rest) = (step c m).1 ++ scanFrom (step c m).2 rest := rfl

theorem scanFrom_ends {rest : List Char} (h : Ends rest) (seen : List Char) :
    scanFrom (.numeral seen) rest = ofNumeral seen :: scanFrom .between rest := by
  cases rest with
  | nil => rfl
  | cons c rest =>
    have hstop : continues seen c = false := by
      rcases h c rfl with rfl | rfl | rfl <;> rfl
    have hstep : step c (.numeral seen) =
        (ofNumeral seen :: (stepBetween c).1, (stepBetween c).2) := by
      rw [step, stepNumeral, hstop]
      rfl
    rw [scanFrom_cons, scanFrom_cons, hstep]
    rfl

theorem scanFrom_continues {seen cs : List Char} (h : Continues seen cs) {rest : List Char}
    (hrest : Ends rest) : scanFrom (.numeral seen) (cs ++ rest) =
      ofNumeral (cs.reverse ++ seen) :: scanFrom .between rest := by
  induction cs generalizing seen with
  | nil => exact scanFrom_ends hrest seen
  | cons c cs ih =>
    have hstep : step c (.numeral seen) = ([], .numeral (c :: seen)) := if_pos h.1
    rw [List.cons_append, scanFrom_cons, hstep, List.nil_append, ih h.2, List.reverse_cons,
      List.append_assoc]
    rfl

theorem stepBetween_digit {c : Char} (h : c.isDigit = true) :
    stepBetween c = ([], .numeral [c]) := by
  have hne : ∀ d : Char, d.isDigit = false → c ≠ d := by
    rintro d hd rfl
    rw [h] at hd
    cases hd
  have hgap : isGap c = false := by
    simp [isGap, hne]
  rw [stepBetween, hgap, if_neg Bool.false_ne_true, if_neg (hne '"' (by decide)), h, Bool.or_true,
    if_pos rfl]

/-- A numeral is one token. -/
theorem scanFrom_numeral {cs : List Char} {n : Number} (h : Numeral.read cs = .value n)
    {rest : List Char} (hrest : Ends rest) :
    scanFrom .between (cs ++ rest) = .number n :: scanFrom .between rest := by
  obtain ⟨sign, whole, fraction, exponent, hshape⟩ : ∃ sign whole fraction exponent,
      Shape cs sign whole fraction exponent := exists_shape (by rw [h]; exact nofun)
  obtain ⟨c, more, rfl, hc, hmore⟩ := hshape.continues
  have hfirst : step c .between = ([], .numeral [c]) := by
    rcases hc with rfl | hdigit
    · rfl
    · exact stepBetween_digit hdigit
  have htoken : ofNumeral (more.reverse ++ [c]) = .number n := by
    have hreverse : (more.reverse ++ [c]).reverse = c :: more := by simp
    rw [ofNumeral, hreverse, h]
  rw [List.cons_append, scanFrom_cons, hfirst, List.nil_append, scanFrom_continues hmore hrest,
    htoken]

/-! ### Integers -/

theorem toDigits_ne_zero_cons (n : Nat) (c : Char) (rest : List Char) :
    Nat.toDigits 10 n ≠ '0' :: c :: rest := by
  induction n using Nat.strong_induction_on generalizing c rest with
  | _ n ih =>
  intro h
  rcases Nat.lt_or_ge n 10 with hn | hn
  · rw [Nat.toDigits_of_lt_base hn] at h
    cases (List.cons.inj h).2
  rw [Nat.toDigits_of_base_le (by decide) hn] at h
  rcases List.append_eq_cons_iff.mp h with ⟨hnil, -⟩ | ⟨more, hdigits, hrest⟩
  · exact Nat.toDigits_ne_nil hnil
  cases more with
  | nil =>
    -- the digits before the last one are those of zero
    have hzero : n / 10 = 0 := by
      rw [← Nat.ofDigitChars_ten_toDigits (n := n / 10), hdigits]
      rfl
    omega
  | cons d more => exact ih (n / 10) (by omega) d more hdigits

/-- Digits are taken into the significand as long as their number fits. -/
theorem accumulate_digits {significand : Nat} {ds : List Char}
    (h : Nat.ofDigitChars 10 ds significand ≤ maxSignificand) :
    accumulate significand ds = (Nat.ofDigitChars 10 ds significand, []) := by
  induction ds generalizing significand with
  | nil => rfl
  | cons d ds ih =>
    have hnext : 10 * significand + (d.toNat - '0'.toNat) = significand * 10 + digitValue d := by
      rw [Nat.mul_comm]
      rfl
    rw [Nat.ofDigitChars_cons, hnext] at h ⊢
    have hfits : significand * 10 + digitValue d ≤ maxSignificand := by
      refine Nat.le_trans ?_ h
      rw [Nat.ofDigitChars_eq_ofDigitChars_zero]
      exact Nat.le_add_right_of_le (Nat.le_mul_of_pos_left _ (Nat.pow_pos (by decide)))
    rw [accumulate, if_pos hfits, ih h]

theorem ofParts_toDigits {n : Nat} (h : n ≤ maxSignificand) (negative : Bool) :
    ofParts negative (Nat.toDigits 10 n) none none = .value (whole negative n) := by
  have hvalue : Nat.ofDigitChars 10 (Nat.toDigits 10 n) 0 = n := Nat.ofDigitChars_ten_toDigits
  rw [ofParts, accumulate_digits (hvalue.symm ▸ h), hvalue]
  rfl

theorem spanDigits_toDigits (n : Nat) :
    spanDigits (Nat.toDigits 10 n) = (Nat.toDigits 10 n, []) := by
  have hdigits : ∀ c ∈ Nat.toDigits 10 n, c.isDigit = true := fun c hc =>
    Nat.isDigit_of_mem_toDigits (by decide) (by decide) hc
  rw [spanDigits, List.takeWhile_eq_self_iff.mpr hdigits, List.dropWhile_eq_nil_iff.mpr hdigits]

theorem read_toDigits (negative : Bool) {n : Nat} (h : n ≤ maxSignificand) {cs : List Char}
    (hcs : cs = (if negative then ['-'] else []) ++ Nat.toDigits 10 n) :
    Numeral.read cs = .value (whole negative n) := by
  unfold Numeral.read
  split
  next sign body hsign =>
  obtain ⟨rfl, rfl⟩ : sign = negative ∧ body = Nat.toDigits 10 n := by
    split at hsign
    · obtain ⟨rfl, rfl⟩ := Prod.mk.inj hsign
      cases negative with
      | true => exact ⟨rfl, (List.cons.inj hcs).2⟩
      | false =>
        have hmem : '-' ∈ Nat.toDigits 10 n := List.mem_of_mem_head? (congrArg List.head? hcs).symm
        exact absurd (Nat.isDigit_of_mem_toDigits (by decide) (by decide) hmem) (by decide)
    · next hmark =>
      obtain ⟨rfl, rfl⟩ := Prod.mk.inj hsign
      cases negative with
      | true => exact absurd hcs (hmark _)
      | false => exact ⟨rfl, hcs⟩
  simp only [spanDigits_toDigits]
  split
  · next hnil => exact absurd hnil Nat.toDigits_ne_nil
  · next hzero => exact absurd hzero (toDigits_ne_zero_cons n _ _)
  · exact ofParts_toDigits h _

/-- A 64-bit integer is read back from its text. -/
theorem read_integer {i : Int} (h : isNarrow (.integer i) = true) :
    Numeral.read (toString i).toList = .value (.integer i) := by
  obtain ⟨hlow, hhigh⟩ : -(twoTo 63 : Int) ≤ i ∧ i < (twoTo 64 : Int) := by
    simpa [isNarrow] using h
  have hmax : (maxSignificand : Int) = twoTo 64 - 1 := rfl
  cases i with
  | ofNat n =>
    have hn : n ≤ maxSignificand := by
      have : (n : Int) < twoTo 64 := hhigh
      omega
    exact read_toDigits false hn Nat.toList_repr
  | negSucc n =>
    have hn : n + 1 ≤ twoTo 63 := by
      omega
    have hfits : n + 1 ≤ maxSignificand := Nat.le_trans hn (by decide)
    have htext : (toString (Int.negSucc n)).toList = '-' :: Nat.toDigits 10 (n + 1) := by
      have : toString (Int.negSucc n) = "-" ++ Nat.repr (n + 1) := rfl
      rw [this, String.toList_append, Nat.toList_repr]
      rfl
    rw [read_toDigits true hfits htext]
    have hwhole : whole true (n + 1) = .integer (-((n + 1 : Nat) : Int)) := by
      rw [whole, if_pos rfl, if_neg (by omega)]
    rw [hwhole]
    rfl

end CorpusAgent.Json

namespace CorpusAgent.Number

/-- A number that is read back from its text: an integer of 64 bits, or a decimal that the roundings
of reading lead back to. -/
def ReadsBack : Number → Prop
  | .integer i => Json.isNarrow (.integer i) = true
  | .decimal x => Json.Numeral.read (x.text .json).toList = .value (.decimal x)

instance : (n : Number) → Decidable n.ReadsBack
  | .integer _ => inferInstanceAs (Decidable (_ = _))
  | .decimal _ => inferInstanceAs (Decidable (_ = _))

theorem ReadsBack.read_print {n : Number} (h : n.ReadsBack) :
    Json.Numeral.read n.print.toList = .value n := by
  cases n with
  | integer i => exact Json.read_integer h
  | decimal x => exact h

end CorpusAgent.Number
