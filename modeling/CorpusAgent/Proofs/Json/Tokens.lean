import CorpusAgent.Proofs.Json.Numeral
import Mathlib.Data.List.Forall2

/-!
# The tokens of printed JSON

* `tokens`: the tokens that a value is printed with.
* `Writable`: text can hold a value if its numbers are read back, if its objects list their members
  in order and if not too many lists and objects stand around each other.
* `Scans`: a run of characters is cut into certain tokens, whatever may follow a value.
* `scans_print`: the text of a value that text can hold is cut into the tokens of the value.
-/

namespace CorpusAgent.Json

open Token

mutual

/-- The tokens of a value. -/
def tokens : Json → List Token
  | .null => [.null]
  | .bool b => [.bool b]
  | .number n => [.number n]
  | .text s => [.text (some s)]
  | .list items => .openList :: ([.comma].intercalate (itemTokens items) ++ [.closeList])
  | .object members =>
    .openObject :: ([.comma].intercalate (memberTokens members) ++ [.closeObject])

/-- The tokens of each item. -/
def itemTokens : List Json → List (List Token)
  | [] => []
  | item :: rest => tokens item :: itemTokens rest

/-- The tokens of each member. -/
def memberTokens : List (String × Json) → List (List Token)
  | [] => []
  | (name, value) :: rest => (.text (some name) :: .colon :: tokens value) :: memberTokens rest

end

/-- Text can hold a value with at most so many lists and objects around each other. -/
inductive Writable : Nat → Json → Prop
  | null {depth : Nat} : Writable depth .null
  | bool {depth : Nat} (b : Bool) : Writable depth (.bool b)
  | number {depth : Nat} {n : Number} (h : n.ReadsBack) : Writable depth (.number n)
  | text {depth : Nat} (s : String) : Writable depth (.text s)
  | list {depth : Nat} {items : List Json} (h : ∀ item ∈ items, Writable depth item) :
    Writable (depth + 1) (.list items)
  | object {depth : Nat} {members : List (String × Json)}
    (hnames : members.Pairwise fun a b => a.1 < b.1) (h : ∀ m ∈ members, Writable depth m.2) :
    Writable (depth + 1) (.object members)

theorem Writable.mono {depth other : Nat} {v : Json} (h : Writable depth v)
    (hle : depth ≤ other) : Writable other v := by
  induction h generalizing other with
  | null => exact .null
  | bool b => exact .bool b
  | number hn => exact .number hn
  | text s => exact .text s
  | list _ ih =>
    obtain ⟨inner, rfl⟩ := Nat.exists_eq_add_of_lt hle
    exact .list fun item hitem => ih item hitem (by omega)
  | object hnames _ ih =>
    obtain ⟨inner, rfl⟩ := Nat.exists_eq_add_of_lt hle
    exact .object hnames fun m hm => ih m hm (by omega)

/-! ### Texts -/

theorem hexValue?_hexDigit {k : Nat} (h : k < 16) :
    Text.hexValue? (Text.hexDigit k) = some k := by
  revert k
  decide

theorem eq_ofNat_of_toNat {c : Char} {n : Nat} (h : c.toNat = n) : c = Char.ofNat n := by
  rw [← h, Char.ofNat_toNat]

theorem scanFrom_unicode {c : Char} (h : c.toNat < 0x20) (seen rest : List Char) :
    scanFrom (.unicode (some seen) 1 0 none)
        (Text.hexDigit (c.toNat / 16) :: Text.hexDigit (c.toNat % 16) :: rest) =
      scanFrom (.text (some (c :: seen))) rest := by
  have hdigit : c.toNat / 16 < 16 := by
    omega
  have hhigh : step (Text.hexDigit (c.toNat / 16)) (.unicode (some seen) 1 0 none) =
      ([], .unicode (some seen) 0 (c.toNat / 16) none) := by
    simp only [step, stepUnicode, hexValue?_hexDigit hdigit, Nat.zero_mul, Nat.zero_add]
  have hcode : c.toNat / 16 * 16 + c.toNat % 16 = c.toNat := by
    omega
  have hunit : afterUnit (some seen) c.toNat none = .text (some (c :: seen)) := by
    have hlow : decide (0xD800 ≤ c.toNat) = false := decide_eq_false (by omega)
    have hlater : decide (0xDC00 ≤ c.toNat) = false := decide_eq_false (by omega)
    rw [afterUnit, hlow, hlater, Char.ofNat_toNat]
    rfl
  have hlow : step (Text.hexDigit (c.toNat % 16)) (.unicode (some seen) 0 (c.toNat / 16) none) =
      ([], .text (some (c :: seen))) := by
    simp only [step, stepUnicode, hexValue?_hexDigit (Nat.mod_lt _ (by decide)), hcode, hunit]
  rw [scanFrom_cons, hhigh, scanFrom_cons, hlow]
  rfl

/-- A character is read back from its escape. -/
theorem scanFrom_escapeChar (c : Char) (seen rest : List Char) :
    scanFrom (.text (some seen)) (escapeChar c ++ rest) =
      scanFrom (.text (some (c :: seen))) rest := by
  unfold escapeChar
  split_ifs with hquote hbackslash h8 h9 h10 h12 h13 hcontrol
  · rw [hquote]
    rfl
  · rw [hbackslash]
    rfl
  · rw [eq_ofNat_of_toNat h8]
    rfl
  · rw [eq_ofNat_of_toNat h9]
    rfl
  · rw [eq_ofNat_of_toNat h10]
    rfl
  · rw [eq_ofNat_of_toNat h12]
    rfl
  · rw [eq_ofNat_of_toNat h13]
    rfl
  · exact scanFrom_unicode hcontrol seen rest
  · have hstep : step c (.text (some seen)) = ([], .text (some (c :: seen))) := by
      rw [step, stepText, if_neg hquote, if_neg hbackslash, if_neg hcontrol]
      rfl
    rw [List.singleton_append, scanFrom_cons, hstep]
    rfl

theorem scanFrom_escapeChars (cs seen rest : List Char) :
    scanFrom (.text (some seen)) (cs.flatMap escapeChar ++ rest) =
      scanFrom (.text (some (cs.reverse ++ seen))) rest := by
  induction cs generalizing seen with
  | nil => rfl
  | cons c cs ih =>
    rw [List.flatMap_cons, List.append_assoc, scanFrom_escapeChar, ih, List.reverse_cons,
      List.append_assoc]
    rfl

/-- A text in quotes is one token, whatever follows it. -/
theorem scanFrom_quote (s : String) (rest : List Char) :
    scanFrom .between ((quote s).toList ++ rest) = .text (some s) :: scanFrom .between rest := by
  have hchars : (quote s).toList ++ rest =
      '"' :: (s.toList.flatMap escapeChar ++ '"' :: rest) := by
    simp [quote]
  have hopen : step '"' .between = ([], .text (some [])) := rfl
  have hclose : ∀ seen : List Char, step '"' (.text (some seen)) =
      ([.text (some (String.ofList seen.reverse))], .between) := fun _ => rfl
  rw [hchars, scanFrom_cons, hopen, List.nil_append, scanFrom_escapeChars, scanFrom_cons, hclose,
    List.append_nil, List.reverse_reverse, String.ofList_toList]
  rfl

/-! ### Values -/

/-- A run of characters is cut into certain tokens, whatever may follow a value. -/
def Scans (cs : List Char) (ts : List Token) : Prop :=
  ∀ rest, Ends rest → scanFrom .between (cs ++ rest) = ts ++ scanFrom .between rest

theorem ends_cons {c : Char} (h : c = ',' ∨ c = ']' ∨ c = '\x7d') (rest : List Char) :
    Ends (c :: rest) := by
  intro d hd
  obtain rfl := Option.some.inj hd
  exact h

theorem scans_intercalate {texts : List String} {entries : List (List Token)}
    (h : List.Forall₂ (fun s ts => Scans s.toList ts) texts entries) :
    Scans (",".intercalate texts).toList ([.comma].intercalate entries) := by
  induction h with
  | nil => exact fun rest _ => rfl
  | @cons s ts texts entries hfirst hmore ih =>
    cases hmore with
    | nil => simpa using hfirst
    | @cons t us texts entries hsecond hmore =>
      intro rest hrest
      have hchars : (",".intercalate (s :: t :: texts)).toList ++ rest =
          s.toList ++ ',' :: ((",".intercalate (t :: texts)).toList ++ rest) := by
        simp [String.intercalate_cons_cons]
      have hcomma : ∀ later, scanFrom .between (',' :: later) =
          .comma :: scanFrom .between later := fun _ => rfl
      rw [hchars, hfirst _ (ends_cons (.inl rfl) _), hcomma, ih rest hrest,
        List.intercalate_cons_cons]
      simp

theorem Scans.enclose {cs : List Char} {ts : List Token} (h : Scans cs ts) {first last : Char}
    {opening closing : Token} (hfirst : step first .between = ([opening], .between))
    (hlast : step last .between = ([closing], .between)) (hends : last = ']' ∨ last = '\x7d') :
    Scans (first :: (cs ++ [last])) (opening :: (ts ++ [closing])) := by
  intro rest _
  have hclose : scanFrom .between (last :: rest) = closing :: scanFrom .between rest := by
    rw [scanFrom_cons, hlast]
    rfl
  have hchars : first :: (cs ++ [last]) ++ rest = first :: (cs ++ last :: rest) := by simp
  rw [hchars, scanFrom_cons, hfirst, h _ (ends_cons (.inr hends) _), hclose]
  simp

theorem printItems_eq_map (items : List Json) : printItems items = items.map print := by
  induction items with
  | nil => rfl
  | cons item rest ih => rw [printItems, ih, List.map_cons]

theorem itemTokens_eq_map (items : List Json) : itemTokens items = items.map tokens := by
  induction items with
  | nil => rfl
  | cons item rest ih => rw [itemTokens, ih, List.map_cons]

theorem forall₂_printItems {items : List Json}
    (h : ∀ item ∈ items, Scans item.print.toList item.tokens) :
    List.Forall₂ (fun s ts => Scans s.toList ts) (printItems items) (itemTokens items) := by
  rw [printItems_eq_map, itemTokens_eq_map, List.forall₂_map_left_iff, List.forall₂_map_right_iff,
    List.forall₂_same]
  exact h

theorem forall₂_printMembers {members : List (String × Json)}
    (h : ∀ m ∈ members, Scans m.2.print.toList m.2.tokens) :
    List.Forall₂ (fun s ts => Scans s.toList ts) (printMembers members) (memberTokens members) := by
  induction members with
  | nil => exact .nil
  | cons m rest ih =>
    obtain ⟨name, value⟩ := m
    obtain ⟨hvalue, hrest⟩ := List.forall_mem_cons.mp h
    refine .cons (fun later hlater => ?_) (ih hrest)
    have hcolon : ∀ later, scanFrom .between (':' :: later) =
        .colon :: scanFrom .between later := fun _ => rfl
    have hchars : (quote name ++ ":" ++ value.print).toList ++ later =
        (quote name).toList ++ ':' :: (value.print.toList ++ later) := by simp
    rw [hchars, scanFrom_quote, hcolon, hvalue later hlater]
    rfl

/-- The text of a value is cut into the tokens of the value. -/
theorem scans_print {depth : Nat} {v : Json} (h : Writable depth v) :
    Scans v.print.toList v.tokens := by
  induction h with
  | null => exact fun _ _ => rfl
  | bool b =>
    cases b with
    | true => exact fun _ _ => rfl
    | false => exact fun _ _ => rfl
  | number hn => exact fun rest hrest => scanFrom_numeral hn.read_print hrest
  | text s => exact fun rest _ => scanFrom_quote s rest
  | @list _ items _ ih =>
    have hchars : (Json.list items).print.toList =
        '[' :: ((",".intercalate (printItems items)).toList ++ [']']) := by
      simp [print]
    rw [hchars]
    exact (scans_intercalate (forall₂_printItems ih)).enclose rfl rfl (.inl rfl)
  | @object _ members _ _ ih =>
    have hchars : (Json.object members).print.toList =
        '\x7b' :: ((",".intercalate (printMembers members)).toList ++ ['\x7d']) := by
      simp [print]
    rw [hchars]
    exact (scans_intercalate (forall₂_printMembers ih)).enclose rfl rfl (.inr rfl)

end CorpusAgent.Json
