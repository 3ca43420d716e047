/-
# Values as JSON texts

The texts of values, over any type of numbers whose finite members have a text, and the reader of
such texts as an automaton: one unit at a time, with the arrays and objects that are open on a
stack.  A value is read back from its text with its numbers that are not finite gone
(`parse_text`), and its text has no lone surrogates (`wellFormed_text`).
-/
import Astrea.Utf16
import Mathlib.Data.List.TakeWhile
import Mathlib.Data.Nat.Digits.Lemmas

namespace JsonText

open Utf16

/-! ## Numbers -/

def isDigitUnit (u : UInt16) : Bool := 48 ≤ u.toNat && u.toNat ≤ 57

/-- Digits, at least one of them. -/
def isDigitRun (s : CodeUnits) : Bool := !s.isEmpty && s.all isDigitUnit

def isSignedRun : CodeUnits → Bool
  | 43 :: digits => isDigitRun digits
  | 45 :: digits => isDigitRun digits
  | digits => isDigitRun digits

/-- An exponent with its letter, or nothing. -/
def isExponent : CodeUnits → Bool
  | [] => true
  | e :: rest => (e = 101 || e = 69) && isSignedRun rest

/-- What may follow the digits before the point. -/
def isFraction : CodeUnits → Bool
  | 46 :: rest => !(rest.takeWhile isDigitUnit).isEmpty && isExponent (rest.dropWhile isDigitUnit)
  | rest => isExponent rest

def isUnsigned (s : CodeUnits) : Bool :=
  match s.takeWhile isDigitUnit with
  | [] => false
  | d :: more => (d ≠ 48 || more.isEmpty) && isFraction (s.dropWhile isDigitUnit)

/-- The number literals. -/
def isNumber : CodeUnits → Bool
  | 45 :: rest => isUnsigned rest
  | s => isUnsigned s

/-- A type of numbers.  The finite ones have a literal, from which they are read back. -/
structure Numbers (ν : Type*) where
  isFinite : ν → Bool
  text : ν → CodeUnits
  value : CodeUnits → ν
  isNumber_text : ∀ x, isFinite x = true → isNumber (text x) = true
  value_text : ∀ x, isFinite x = true → value (text x) = x

/-! ## Texts -/

inductive Value (ν : Type*) where
  | null
  | bool (b : Bool)
  | num (x : ν)
  | str (s : CodeUnits)
  | arr (items : List (Value ν))
  | obj (fields : List (CodeUnits × Value ν))

def hexDigit (n : ℕ) : UInt16 := if n < 10 then .ofNat (48 + n) else .ofNat (87 + n)

/-- The escape with a unit's four hexadecimal digits. -/
def hexEscape (u : UInt16) : CodeUnits :=
  [92, 117, hexDigit (u.toNat / 4096), hexDigit (u.toNat / 256 % 16), hexDigit (u.toNat / 16 % 16),
    hexDigit (u.toNat % 16)]

/-- A unit inside a string.  Quotes, backslashes, control characters and lone surrogates are
escaped. -/
def escapeUnit (u : UInt16) : CodeUnits :=
  if u = 34 then [92, 34]
  else if u = 92 then [92, 92]
  else if u = 8 then [92, 98]
  else if u = 9 then [92, 116]
  else if u = 10 then [92, 110]
  else if u = 12 then [92, 102]
  else if u = 13 then [92, 114]
  else if u.toNat < 32 || isHigh u || isLow u then hexEscape u
  else [u]

def escape : CodeUnits → CodeUnits
  | [] => []
  | [u] => escapeUnit u
  | u :: v :: rest =>
      if isHigh u && isLow v then u :: v :: escape rest else escapeUnit u ++ escape (v :: rest)

def quote (s : CodeUnits) : CodeUnits := 34 :: (escape s ++ [34])

def nullText : CodeUnits := [110, 117, 108, 108]

def boolText (b : Bool) : CodeUnits := if b then [116, 114, 117, 101] else [102, 97, 108, 115, 101]

section
variable {ν : Type*} (N : Numbers ν)

mutual

/-- The text of a value.  A number that is not finite is written as `null`. -/
def Value.text : Value ν → CodeUnits
  | .null => nullText
  | .bool b => boolText b
  | .num x => if N.isFinite x then N.text x else nullText
  | .str s => quote s
  | .arr [] => [91, 93]
  | .arr (v :: rest) => 91 :: (v.text ++ moreItems rest)
  | .obj [] => [123, 125]
  | .obj ((key, v) :: rest) => 123 :: (quote key ++ 58 :: (v.text ++ moreFields rest))

/-- The items behind another one, and the end of the array. -/
def moreItems : List (Value ν) → CodeUnits
  | [] => [93]
  | v :: rest => 44 :: (v.text ++ moreItems rest)

/-- The fields behind another one, and the end of the object. -/
def moreFields : List (CodeUnits × Value ν) → CodeUnits
  | [] => [125]
  | (key, v) :: rest => 44 :: (quote key ++ 58 :: (v.text ++ moreFields rest))

end

mutual

/-- What a value is after it has been written and read. -/
def Value.readBack : Value ν → Value ν
  | .null => .null
  | .bool b => .bool b
  | .num x => if N.isFinite x then .num x else .null
  | .str s => .str s
  | .arr items => .arr (readBackItems items)
  | .obj fields => .obj (readBackFields fields)

def readBackItems : List (Value ν) → List (Value ν)
  | [] => []
  | v :: rest => v.readBack :: readBackItems rest

def readBackFields : List (CodeUnits × Value ν) → List (CodeUnits × Value ν)
  | [] => []
  | (key, v) :: rest => (key, v.readBack) :: readBackFields rest

end

/-! ## The reader -/

/-- An array or object that is open: what it has so far, and for an object the key whose value is
being read. -/
inductive Frame (ν : Type*) where
  | arr (done : List (Value ν))
  | obj (done : List (CodeUnits × Value ν)) (key : CodeUnits)

/-- What the reader is at.  A string is a value, or a key of the object with the given fields. -/
inductive Mode (ν : Type*) where
  | value
  | firstItem
  | firstKey
  | key (done : List (CodeUnits × Value ν))
  | colon (done : List (CodeUnits × Value ν)) (key : CodeUnits)
  | after (v : Value ν)
  | str (object : Option (List (CodeUnits × Value ν))) (s : CodeUnits)
  | esc (object : Option (List (CodeUnits × Value ν))) (s : CodeUnits)
  | hex (object : Option (List (CodeUnits × Value ν))) (s : CodeUnits) (needed n : ℕ)
  | token (t : CodeUnits)

structure State (ν : Type*) where
  stack : List (Frame ν)
  mode : Mode ν

def isSpace (u : UInt16) : Bool := u = 32 || u = 9 || u = 10 || u = 13

/-- A unit that ends a token. -/
def isDelimiter (u : UInt16) : Bool := isSpace u || u = 44 || u = 93 || u = 125

def hexValue (u : UInt16) : Option ℕ :=
  let n := u.toNat
  if 48 ≤ n ∧ n ≤ 57 then some (n - 48)
  else if 97 ≤ n ∧ n ≤ 102 then some (n - 87)
  else if 65 ≤ n ∧ n ≤ 70 then some (n - 55)
  else none

/-- The value of a token. -/
def literal (t : CodeUnits) : Option (Value ν) :=
  if t = nullText then some .null
  else if t = boolText true then some (.bool true)
  else if t = boolText false then some (.bool false)
  else if isNumber t then some (.num (N.value t))
  else none

def stepValue (stack : List (Frame ν)) (u : UInt16) : Option (State ν) :=
  if isSpace u then some ⟨stack, .value⟩
  else if u = 34 then some ⟨stack, .str none []⟩
  else if u = 91 then some ⟨stack, .firstItem⟩
  else if u = 123 then some ⟨stack, .firstKey⟩
  else if isDelimiter u then none
  else some ⟨stack, .token [u]⟩

/-- A unit behind a value. -/
def stepAfter (stack : List (Frame ν)) (v : Value ν) (u : UInt16) : Option (State ν) :=
  if isSpace u then some ⟨stack, .after v⟩
  else match stack with
    | [] => none
    | .arr done :: rest =>
        if u = 44 then some ⟨.arr (done ++ [v]) :: rest, .value⟩
        else if u = 93 then some ⟨rest, .after (.arr (done ++ [v]))⟩
        else none
    | .obj done key :: rest =>
        if u = 44 then some ⟨rest, .key (done ++ [(key, v)])⟩
        else if u = 125 then some ⟨rest, .after (.obj (done ++ [(key, v)]))⟩
        else none

/-- The unit behind a backslash. -/
def stepEscape (stack : List (Frame ν)) (object : Option (List (CodeUnits × Value ν)))
    (s : CodeUnits) (u : UInt16) : Option (State ν) :=
  if u = 34 || u = 92 || u = 47 then some ⟨stack, .str object (s ++ [u])⟩
  else if u = 98 then some ⟨stack, .str object (s ++ [8])⟩
  else if u = 116 then some ⟨stack, .str object (s ++ [9])⟩
  else if u = 110 then some ⟨stack, .str object (s ++ [10])⟩
  else if u = 102 then some ⟨stack, .str object (s ++ [12])⟩
  else if u = 114 then some ⟨stack, .str object (s ++ [13])⟩
  else if u = 117 then some ⟨stack, .hex object s 4 0⟩
  else none

/-- What a string is for, once it is closed. -/
def closeString (object : Option (List (CodeUnits × Value ν))) (s : CodeUnits) : Mode ν :=
  match object with
  | none => .after (.str s)
  | some done => .colon done s

def step (st : State ν) (u : UInt16) : Option (State ν) :=
  match st.mode with
  | .value => stepValue st.stack u
  | .firstItem =>
      if isSpace u then some st
      else if u = 93 then some ⟨st.stack, .after (.arr [])⟩
      else stepValue (.arr [] :: st.stack) u
  | .firstKey =>
      if isSpace u then some st
      else if u = 125 then some ⟨st.stack, .after (.obj [])⟩
      else if u = 34 then some ⟨st.stack, .str (some []) []⟩
      else none
  | .key done =>
      if isSpace u then some st
      else if u = 34 then some ⟨st.stack, .str (some done) []⟩
      else none
  | .colon done key =>
      if isSpace u then some st
      else if u = 58 then some ⟨.obj done key :: st.stack, .value⟩
      else none
  | .after v => stepAfter st.stack v u
  | .str object s =>
      if u = 34 then some ⟨st.stack, closeString object s⟩
      else if u = 92 then some ⟨st.stack, .esc object s⟩
      else if u.toNat < 32 then none
      else some ⟨st.stack, .str object (s ++ [u])⟩
  | .esc object s => stepEscape st.stack object s u
  | .hex object s needed n =>
      (hexValue u).map fun d =>
        if needed = 1 then ⟨st.stack, .str object (s ++ [.ofNat (n * 16 + d)])⟩
        else ⟨st.stack, .hex object s (needed - 1) (n * 16 + d)⟩
  | .token t =>
      if isDelimiter u then (literal N t).bind fun v => stepAfter st.stack v u
      else some ⟨st.stack, .token (t ++ [u])⟩

/-- The value, when the text ends here. -/
def finish (st : State ν) : Option (Value ν) :=
  match st.stack, st.mode with
  | [], .after v => some v
  | [], .token t => literal N t
  | _, _ => none

def run (st : State ν) (s : CodeUnits) : Option (State ν) := s.foldlM (step N) st

/-- The value of a text. -/
def parse (s : CodeUnits) : Option (Value ν) := (run N ⟨[], .value⟩ s).bind (finish N)

end

/-! ## Number literals -/

/-- The units of number literals. -/
def isNumberUnit (u : UInt16) : Bool :=
  isDigitUnit u || u = 43 || u = 45 || u = 46 || u = 69 || u = 101

theorem isDigitRun_units {s : CodeUnits} (h : isDigitRun s = true) :
    ∀ u ∈ s, isNumberUnit u = true := by
  intro u hu
  rw [isDigitRun, Bool.and_eq_true, List.all_eq_true] at h
  rw [isNumberUnit, h.2 u hu]
  rfl

theorem isSignedRun_units {s : CodeUnits} (h : isSignedRun s = true) :
    ∀ u ∈ s, isNumberUnit u = true := by
  unfold isSignedRun at h
  split at h
  · exact List.forall_mem_cons.mpr ⟨by decide, isDigitRun_units h⟩
  · exact List.forall_mem_cons.mpr ⟨by decide, isDigitRun_units h⟩
  · exact isDigitRun_units h

theorem isExponent_units {s : CodeUnits} (h : isExponent s = true) :
    ∀ u ∈ s, isNumberUnit u = true := by
  cases s with
  | nil => exact fun u hu => absurd hu List.not_mem_nil
  | cons e rest =>
      rw [isExponent, Bool.and_eq_true, Bool.or_eq_true, decide_eq_true_eq, decide_eq_true_eq] at h
      refine List.forall_mem_cons.mpr ⟨?_, isSignedRun_units h.2⟩
      rcases h.1 with rfl | rfl <;> decide

theorem takeWhile_units (s : CodeUnits) : ∀ u ∈ s.takeWhile isDigitUnit, isNumberUnit u = true := by
  intro u hu
  rw [isNumberUnit, List.mem_takeWhile_imp hu]
  rfl

theorem isFraction_units {s : CodeUnits} (h : isFraction s = true) :
    ∀ u ∈ s, isNumberUnit u = true := by
  unfold isFraction at h
  split at h
  · rename_i rest
    rw [Bool.and_eq_true] at h
    refine List.forall_mem_cons.mpr ⟨by decide, ?_⟩
    rw [← List.takeWhile_append_dropWhile (p := isDigitUnit) (l := rest)]
    exact List.forall_mem_append.mpr ⟨takeWhile_units rest, isExponent_units h.2⟩
  · exact isExponent_units h

theorem isUnsigned_units {s : CodeUnits} (h : isUnsigned s = true) :
    s ≠ [] ∧ ∀ u ∈ s, isNumberUnit u = true := by
  unfold isUnsigned at h
  split at h
  · cases h
  · rename_i d more hdigits
    constructor
    · rintro rfl
      cases hdigits
    · rw [Bool.and_eq_true] at h
      rw [← List.takeWhile_append_dropWhile (p := isDigitUnit) (l := s)]
      exact List.forall_mem_append.mpr ⟨takeWhile_units s, isFraction_units h.2⟩

/-- A number literal is a non-empty text of such units. -/
theorem isNumber_units {s : CodeUnits} (h : isNumber s = true) :
    s ≠ [] ∧ ∀ u ∈ s, isNumberUnit u = true := by
  unfold isNumber at h
  split at h
  · exact ⟨List.cons_ne_nil _ _, List.forall_mem_cons.mpr ⟨by decide, (isUnsigned_units h).2⟩⟩
  · exact isUnsigned_units h

/-! ## Tokens -/

/-- The units of tokens: no space, delimiter, quote or bracket. -/
def isTokenUnit (u : UInt16) : Bool :=
  !isDelimiter u && u ≠ 34 && u ≠ 91 && u ≠ 123 && u.toNat < 128

theorem isTokenUnit_of_number {u : UInt16} (h : isNumberUnit u = true) : isTokenUnit u = true := by
  have hlt : u.toNat < 128 := by
    simp only [isNumberUnit, isDigitUnit, Bool.or_eq_true, Bool.and_eq_true, decide_eq_true_eq] at h
    rcases h with ((((h | rfl) | rfl) | rfl) | rfl) | rfl
    · omega
    all_goals decide
  have hall : ∀ n < 128, isNumberUnit (.ofNat n) = true → isTokenUnit (.ofNat n) = true := by
    decide +kernel
  have hu := hall u.toNat hlt
  rw [UInt16.ofNat_toNat] at hu
  exact hu h

variable {ν : Type*} (N : Numbers ν)

/-- A text is read part by part. -/
theorem run_append (st : State ν) (s t : CodeUnits) :
    run N st (s ++ t) = (run N st s).bind fun st' => run N st' t := List.foldlM_append

theorem run_cons (st : State ν) (u : UInt16) (s : CodeUnits) :
    run N st (u :: s) = (step N st u).bind fun st' => run N st' s := rfl

theorem run_nil (st : State ν) : run N st [] = some st := rfl

/-- Units of tokens go on with a token. -/
theorem run_token {s : CodeUnits} (h : ∀ u ∈ s, isTokenUnit u = true) (stack : List (Frame ν))
    (t : CodeUnits) : run N ⟨stack, .token t⟩ s = some ⟨stack, .token (t ++ s)⟩ := by
  induction s generalizing t with
  | nil => rw [run_nil, List.append_nil]
  | cons u s ih =>
      have hu := h u List.mem_cons_self
      simp only [isTokenUnit, Bool.and_eq_true, Bool.not_eq_true'] at hu
      have hstep : step N ⟨stack, .token t⟩ u = some ⟨stack, .token (t ++ [u])⟩ := by
        show (if isDelimiter u = true then _ else _) = _
        rw [hu.1.1.1.1, if_neg Bool.false_ne_true]
      rw [run_cons, hstep, Option.bind_some, ih fun w hw => h w (List.mem_cons_of_mem _ hw),
        List.append_assoc, List.singleton_append]

/-- A token is read where a value is due. -/
theorem run_value_token {s : CodeUnits} (hne : s ≠ []) (h : ∀ u ∈ s, isTokenUnit u = true)
    (stack : List (Frame ν)) : run N ⟨stack, .value⟩ s = some ⟨stack, .token s⟩ := by
  obtain ⟨u, rest, rfl⟩ := List.exists_cons_of_ne_nil hne
  obtain ⟨hu, hrest⟩ := List.forall_mem_cons.mp h
  simp only [isTokenUnit, Bool.and_eq_true, Bool.not_eq_true', decide_eq_true_eq] at hu
  obtain ⟨⟨⟨⟨hdelim, hquote⟩, hopen⟩, hbrace⟩, -⟩ := hu
  have hspace : isSpace u = false := by
    simp only [isDelimiter, Bool.or_eq_false_iff] at hdelim
    exact hdelim.1.1.1
  have hstep : step N ⟨stack, .value⟩ u = some ⟨stack, .token [u]⟩ := by
    show stepValue stack u = _
    rw [stepValue, hspace, if_neg Bool.false_ne_true, if_neg hquote, if_neg hopen, if_neg hbrace,
      hdelim, if_neg Bool.false_ne_true]
  rw [run_cons, hstep, Option.bind_some, run_token N hrest, List.singleton_append]

theorem nullText_units : ∀ u ∈ nullText, isTokenUnit u = true := List.all_eq_true.mp (by decide)

theorem boolText_ne_nil (b : Bool) : boolText b ≠ [] := by
  revert b
  decide

theorem boolText_units (b : Bool) : ∀ u ∈ boolText b, isTokenUnit u = true :=
  List.all_eq_true.mp (by cases b <;> decide)

/-- The text of a number is read as that number. -/
theorem literal_number {t : CodeUnits} (h : isNumber t = true) :
    literal N t = some (.num (N.value t)) := by
  have hother : ∀ w : CodeUnits, isNumber w = false → t ≠ w := by
    rintro w hw rfl
    rw [hw] at h
    cases h
  rw [literal, if_neg (hother _ (by decide)), if_neg (hother _ (by decide)),
    if_neg (hother _ (by decide)), if_pos h]

/-! ## Strings -/

theorem hexValue_hexDigit : ∀ n < 16, hexValue (hexDigit n) = some n := by decide +kernel

/-- A hexadecimal escape gives its unit. -/
theorem run_hexEscape (stack : List (Frame ν)) (object : Option (List (CodeUnits × Value ν)))
    (s : CodeUnits) (u : UInt16) :
    run N ⟨stack, .str object s⟩ (hexEscape u) = some ⟨stack, .str object (s ++ [u])⟩ := by
  have hu := u.toNat_lt
  have hvalue : (((0 * 16 + u.toNat / 4096) * 16 + u.toNat / 256 % 16) * 16 + u.toNat / 16 % 16) * 16
      + u.toNat % 16 = u.toNat := by omega
  have hmore : ∀ needed n d, d < 16 → needed ≠ 1 →
      step N ⟨stack, .hex object s needed n⟩ (hexDigit d)
        = some ⟨stack, .hex object s (needed - 1) (n * 16 + d)⟩ := by
    intro needed n d hd hneeded
    simp only [step, hexValue_hexDigit d hd, Option.map_some, if_neg hneeded]
  have hlast : ∀ n d, d < 16 → step N ⟨stack, .hex object s 1 n⟩ (hexDigit d)
      = some ⟨stack, .str object (s ++ [.ofNat (n * 16 + d)])⟩ := by
    intro n d hd
    simp only [step, hexValue_hexDigit d hd, Option.map_some, if_true]
  rw [hexEscape]
  show run N ⟨stack, .hex object s 4 0⟩ _ = _
  rw [run_cons, hmore _ _ _ (by omega) (by omega), Option.bind_some, run_cons,
    hmore _ _ _ (by omega) (by omega), Option.bind_some, run_cons,
    hmore _ _ _ (by omega) (by omega), Option.bind_some, run_cons, hlast _ _ (by omega),
    hvalue, UInt16.ofNat_toNat]
  rfl

/-- A unit that needs no escape stands for itself. -/
theorem run_plain {u : UInt16} (hquote : u ≠ 34) (hslash : u ≠ 92) (hlow : 32 ≤ u.toNat)
    (stack : List (Frame ν)) (object : Option (List (CodeUnits × Value ν))) (s : CodeUnits) :
    step N ⟨stack, .str object s⟩ u = some ⟨stack, .str object (s ++ [u])⟩ := by
  simp only [step]
  rw [if_neg hquote, if_neg hslash, if_neg (by omega)]

/-- An escaped unit is read back. -/
theorem run_escapeUnit (stack : List (Frame ν)) (object : Option (List (CodeUnits × Value ν)))
    (s : CodeUnits) (u : UInt16) :
    run N ⟨stack, .str object s⟩ (escapeUnit u) = some ⟨stack, .str object (s ++ [u])⟩ := by
  unfold escapeUnit
  split
  · subst_vars; rfl
  split
  · subst_vars; rfl
  split
  · subst_vars; rfl
  split
  · subst_vars; rfl
  split
  · subst_vars; rfl
  split
  · subst_vars; rfl
  split
  · subst_vars; rfl
  split
  · exact run_hexEscape N stack object s u
  · rename_i hquote hslash _ _ _ _ _ hplain
    simp only [Bool.or_eq_true, decide_eq_true_eq, not_or] at hplain
    rw [run_cons, run_plain N hquote hslash (by omega)]
    rfl

/-- The units of a surrogate pair are read as they are. -/
theorem run_surrogate {u : UInt16} (h : 0xD800 ≤ u.toNat) (stack : List (Frame ν))
    (object : Option (List (CodeUnits × Value ν))) (s : CodeUnits) :
    step N ⟨stack, .str object s⟩ u = some ⟨stack, .str object (s ++ [u])⟩ := by
  refine run_plain N ?_ ?_ (by omega) stack object s
  · rintro rfl
    exact absurd h (by decide)
  · rintro rfl
    exact absurd h (by decide)

/-- An escaped text is read back. -/
theorem run_escape (stack : List (Frame ν)) (object : Option (List (CodeUnits × Value ν)))
    (s t : CodeUnits) :
    run N ⟨stack, .str object t⟩ (escape s) = some ⟨stack, .str object (t ++ s)⟩ := by
  induction s using escape.induct generalizing t with
  | case1 => rw [escape, run_nil, List.append_nil]
  | case2 u => rw [escape, run_escapeUnit]
  | case3 u v rest hpair ih =>
      obtain ⟨hu, hv⟩ := Bool.and_eq_true_iff.mp hpair
      simp only [isHigh, isLow, Bool.and_eq_true, decide_eq_true_eq] at hu hv
      rw [escape, if_pos hpair, run_cons, run_surrogate N hu.1, Option.bind_some, run_cons,
        run_surrogate N (by omega), Option.bind_some, ih, List.append_assoc, List.append_assoc]
      rfl
  | case4 u v rest hpair ih =>
      rw [escape, if_neg hpair, run_append, run_escapeUnit, Option.bind_some, ih,
        List.append_assoc]
      rfl

/-- A quoted text, from behind its first quote. -/
theorem run_quoted (stack : List (Frame ν)) (object : Option (List (CodeUnits × Value ν)))
    (s : CodeUnits) :
    run N ⟨stack, .str object []⟩ (escape s ++ [34]) = some ⟨stack, closeString object s⟩ := by
  rw [run_append, run_escape, List.nil_append, Option.bind_some]
  rfl

/-! ## Values -/

/-- A value has been read: it is complete, or a token that ends with the next unit. -/
def Read (st : State ν) (v : Value ν) (stack : List (Frame ν)) : Prop :=
  st = ⟨stack, .after v⟩ ∨ ∃ t, st = ⟨stack, .token t⟩ ∧ literal N t = some v

variable {N}

/-- A value that was read stands at the next delimiter. -/
theorem Read.step {st : State ν} {v : Value ν} {stack : List (Frame ν)} (h : Read N st v stack)
    {u : UInt16} (hu : isDelimiter u = true) : step N st u = stepAfter stack v u := by
  obtain rfl | ⟨t, rfl, hlit⟩ := h
  · rfl
  · show (if isDelimiter u = true then _ else _) = _
    rw [if_pos hu, hlit, Option.bind_some]

/-- A value that was read is the result where the text ends. -/
theorem Read.finish {st : State ν} {v : Value ν} (h : Read N st v []) : finish N st = some v := by
  obtain rfl | ⟨t, rfl, hlit⟩ := h
  · rfl
  · exact hlit

/-- A token is read as its value. -/
theorem read_token {s : CodeUnits} {v : Value ν} (hne : s ≠ []) (h : ∀ u ∈ s, isTokenUnit u = true)
    (hlit : literal N s = some v) (stack : List (Frame ν)) :
    ∃ st, run N ⟨stack, .value⟩ s = some st ∧ Read N st v stack :=
  ⟨_, run_value_token N hne h stack, .inr ⟨s, rfl, hlit⟩⟩

/-- The text of a value begins with the value. -/
theorem text_head (v : Value ν) :
    ∃ u rest, v.text N = u :: rest ∧ isSpace u = false ∧ u ≠ 93 := by
  have htoken : ∀ s : CodeUnits, s ≠ [] → (∀ u ∈ s, isTokenUnit u = true) →
      ∃ u rest, s = u :: rest ∧ isSpace u = false ∧ u ≠ 93 := by
    intro s hne h
    obtain ⟨u, rest, rfl⟩ := List.exists_cons_of_ne_nil hne
    have hu := h u List.mem_cons_self
    simp only [isTokenUnit, isDelimiter, Bool.and_eq_true, Bool.not_eq_true', Bool.or_eq_false_iff,
      decide_eq_false_iff_not] at hu
    exact ⟨u, rest, rfl, hu.1.1.1.1.1.1.1, hu.1.1.1.1.1.2⟩
  match v with
  | .null => exact htoken nullText (List.cons_ne_nil _ _) nullText_units
  | .bool b => exact htoken (boolText b) (boolText_ne_nil b) (boolText_units b)
  | .num x =>
      rw [Value.text]
      split
      · rename_i hfin
        obtain ⟨hne, hunits⟩ := isNumber_units (N.isNumber_text x hfin)
        exact htoken _ hne fun u hu => isTokenUnit_of_number (hunits u hu)
      · exact htoken nullText (List.cons_ne_nil _ _) nullText_units
  | .str s => exact ⟨34, _, by rw [Value.text, quote], by decide, by decide⟩
  | .arr [] => exact ⟨91, _, by rw [Value.text], by decide, by decide⟩
  | .arr (w :: rest) => exact ⟨91, _, by rw [Value.text], by decide, by decide⟩
  | .obj [] => exact ⟨123, _, by rw [Value.text], by decide, by decide⟩
  | .obj ((key, w) :: rest) => exact ⟨123, _, by rw [Value.text], by decide, by decide⟩

/-- Behind an opening bracket a value is read as the first item. -/
theorem run_firstItem (v : Value ν) (stack : List (Frame ν)) :
    run N ⟨stack, .firstItem⟩ (v.text N) = run N ⟨.arr [] :: stack, .value⟩ (v.text N) := by
  obtain ⟨u, rest, htext, hspace, hclose⟩ := text_head (N := N) v
  have hstep : step N ⟨stack, .firstItem⟩ u = step N ⟨.arr [] :: stack, .value⟩ u := by
    show (if isSpace u = true then _ else _) = _
    rw [hspace, if_neg Bool.false_ne_true, if_neg hclose]
    rfl
  rw [htext, run_cons, run_cons, hstep]

/-- A key and the value that follows it. -/
theorem run_field {v : Value ν} {st : State ν} {stack : List (Frame ν)}
    {done : List (CodeUnits × Value ν)} {key : CodeUnits}
    (hv : run N ⟨.obj done key :: stack, .value⟩ (v.text N) = some st) (rest : CodeUnits) :
    run N ⟨stack, .str (some done) []⟩ (escape key ++ [34] ++ 58 :: (v.text N ++ rest))
      = run N st rest := by
  rw [run_append, run_quoted, Option.bind_some, run_cons]
  show run N ⟨.obj done key :: stack, .value⟩ _ = _
  rw [run_append, hv, Option.bind_some]

mutual

/-- A value is read from its text. -/
theorem read_text (v : Value ν) (stack : List (Frame ν)) :
    ∃ st, run N ⟨stack, .value⟩ (v.text N) = some st ∧ Read N st (v.readBack N) stack := by
  match v with
  | .null =>
      rw [Value.text, Value.readBack]
      exact read_token (List.cons_ne_nil _ _) nullText_units rfl stack
  | .bool b =>
      rw [Value.text, Value.readBack]
      exact read_token (boolText_ne_nil b) (boolText_units b) (by cases b <;> rfl) stack
  | .num x =>
      rw [Value.text, Value.readBack]
      split
      · rename_i hfin
        have hnumber := N.isNumber_text x hfin
        obtain ⟨hne, hunits⟩ := isNumber_units hnumber
        refine read_token hne (fun u hu => isTokenUnit_of_number (hunits u hu)) ?_ stack
        rw [literal_number N hnumber, N.value_text x hfin]
      · exact read_token (List.cons_ne_nil _ _) nullText_units rfl stack
  | .str s =>
      rw [Value.text, Value.readBack, quote, run_cons]
      exact ⟨_, run_quoted N stack none s, .inl rfl⟩
  | .arr [] =>
      rw [Value.text, Value.readBack, readBackItems]
      exact ⟨_, rfl, .inl rfl⟩
  | .arr (v :: rest) =>
      obtain ⟨st, hrun, hread⟩ := read_text v (.arr [] :: stack)
      rw [Value.text, Value.readBack, readBackItems, run_cons]
      show ∃ st', run N ⟨stack, .firstItem⟩ _ = some st' ∧ _
      rw [run_append, run_firstItem, hrun, Option.bind_some]
      exact ⟨_, read_moreItems rest hread, .inl rfl⟩
  | .obj [] =>
      rw [Value.text, Value.readBack, readBackFields]
      exact ⟨_, rfl, .inl rfl⟩
  | .obj ((key, v) :: rest) =>
      obtain ⟨st, hrun, hread⟩ := read_text v (.obj [] key :: stack)
      rw [Value.text, Value.readBack, readBackFields, quote, List.cons_append, run_cons]
      show ∃ st', run N ⟨stack, .str (some []) []⟩ _ = some st' ∧ _
      rw [run_field hrun]
      exact ⟨_, read_moreFields rest hread, .inl rfl⟩

/-- The items behind the first are read, up to the end of the array. -/
theorem read_moreItems (items : List (Value ν)) {v : Value ν} {st : State ν}
    {stack : List (Frame ν)} {done : List (Value ν)} (h : Read N st v (.arr done :: stack)) :
    run N st (moreItems N items)
      = some ⟨stack, .after (.arr (done ++ v :: readBackItems N items))⟩ := by
  match items with
  | [] =>
      rw [moreItems, readBackItems, run_cons, h.step (by decide)]
      rfl
  | w :: rest =>
      obtain ⟨st', hrun, hread⟩ := read_text w (.arr (done ++ [v]) :: stack)
      rw [moreItems, readBackItems, run_cons, h.step (by decide)]
      show run N ⟨.arr (done ++ [v]) :: stack, .value⟩ _ = _
      rw [run_append, hrun, Option.bind_some, read_moreItems rest hread, List.append_assoc,
        List.singleton_append]

/-- The fields behind the first are read, up to the end of the object. -/
theorem read_moreFields (fields : List (CodeUnits × Value ν)) {v : Value ν} {st : State ν}
    {stack : List (Frame ν)} {done : List (CodeUnits × Value ν)} {key : CodeUnits}
    (h : Read N st v (.obj done key :: stack)) :
    run N st (moreFields N fields)
      = some ⟨stack, .after (.obj (done ++ (key, v) :: readBackFields N fields))⟩ := by
  match fields with
  | [] =>
      rw [moreFields, readBackFields, run_cons, h.step (by decide)]
      rfl
  | (key', w) :: rest =>
      obtain ⟨st', hrun, hread⟩ := read_text w (.obj (done ++ [(key, v)]) key' :: stack)
      rw [moreFields, readBackFields, run_cons, h.step (by decide), quote, List.cons_append]
      show run N ⟨stack, .str (some (done ++ [(key, v)])) []⟩ _ = _
      rw [run_field hrun, read_moreFields rest hread, List.append_assoc, List.singleton_append]

end

/-- **The round trip.** -/
theorem parse_text (v : Value ν) : parse N (v.text N) = some (v.readBack N) := by
  obtain ⟨st, hrun, hread⟩ := read_text (N := N) v []
  rw [parse, hrun, Option.bind_some, hread.finish]

/-! ## A value and more -/

section
variable {ν : Type*} (N : Numbers ν)

/-- The value a text starts with; what follows it is not read. -/
def firstValue : State ν → CodeUnits → Option (Value ν)
  | st, [] => finish N st
  | ⟨[], .after v⟩, _ :: _ => some v
  | st, u :: rest => (step N st u).bind fun st' => firstValue st' rest

/-- After a value only space is read. -/
theorem run_after {v : Value ν} {s : CodeUnits} {st : State ν}
    (h : run N ⟨[], .after v⟩ s = some st) : st = ⟨[], .after v⟩ := by
  induction s with
  | nil => exact (Option.some_inj.mp h).symm
  | cons u s ih =>
      have hstep : step N ⟨[], .after v⟩ u = if isSpace u = true then some ⟨[], .after v⟩ else none :=
        rfl
      rw [run_cons, hstep] at h
      split at h
      · exact ih h
      · cases h

/-- A text that is a value starts with it. -/
theorem firstValue_eq {st st' : State ν} {s : CodeUnits} {v : Value ν}
    (hrun : run N st s = some st') (hv : finish N st' = some v) : firstValue N st s = some v := by
  induction st, s using firstValue.induct with
  | case1 st =>
      rw [run_nil, Option.some_inj] at hrun
      rw [firstValue, hrun, hv]
  | case2 w u rest =>
      rw [run_after N hrun] at hv
      exact hv
  | case3 st u rest hst ih =>
      rw [run_cons] at hrun
      obtain ⟨next, hstep, hrest⟩ := Option.bind_eq_some_iff.mp hrun
      rw [firstValue, hstep, Option.bind_some]
      · exact ih next hrest
      · exact hst

/-- Where the whole text is one value, that is the first. -/
theorem firstValue_of_parse {s : CodeUnits} {v : Value ν} (h : parse N s = some v) :
    firstValue N ⟨[], .value⟩ s = some v := by
  obtain ⟨st, hrun, hv⟩ := Option.bind_eq_some_iff.mp h
  exact firstValue_eq N hrun hv

end

/-! ## No lone surrogates -/

theorem isTokenUnit_ascii {s : CodeUnits} (h : ∀ u ∈ s, isTokenUnit u = true) : Ascii s := by
  intro u hu
  have htoken := h u hu
  simp only [isTokenUnit, Bool.and_eq_true, decide_eq_true_eq] at htoken
  exact htoken.2

theorem wellFormed_cons {u : UInt16} (hu : u.toNat < 128) {s : CodeUnits}
    (hs : wellFormed s = true) : wellFormed (u :: s) = true :=
  wellFormed_append (s := [u]) (Ascii.wellFormed fun w hw => by rwa [List.mem_singleton.mp hw]) hs

theorem hexDigit_lt : ∀ n < 16, (hexDigit n).toNat < 128 := by decide +kernel

theorem wellFormed_escapeUnit (u : UInt16) : wellFormed (escapeUnit u) = true := by
  unfold escapeUnit
  split
  · rfl
  split
  · rfl
  split
  · rfl
  split
  · rfl
  split
  · rfl
  split
  · rfl
  split
  · rfl
  split
  · have hlt := u.toNat_lt
    refine Ascii.wellFormed ?_
    simp only [Ascii, hexEscape, List.forall_mem_cons, List.not_mem_nil, false_imp_iff,
      implies_true, and_true]
    exact ⟨by decide, by decide, hexDigit_lt _ (by omega), hexDigit_lt _ (by omega),
      hexDigit_lt _ (by omega), hexDigit_lt _ (by omega)⟩
  · rename_i hplain
    simp only [Bool.or_eq_true, not_or, Bool.not_eq_true] at hplain
    rw [wellFormed, hplain.1.2, hplain.2]
    rfl

/-- Escaped text is well formed. -/
theorem wellFormed_escape (s : CodeUnits) : wellFormed (escape s) = true := by
  induction s using escape.induct with
  | case1 => rfl
  | case2 u => exact wellFormed_escapeUnit u
  | case3 u v rest hpair ih => rw [escape, if_pos hpair, wellFormed, if_pos hpair, ih]
  | case4 u v rest hpair ih =>
      rw [escape, if_neg hpair]
      exact wellFormed_append (wellFormed_escapeUnit u) ih

theorem wellFormed_quote (s : CodeUnits) : wellFormed (quote s) = true :=
  wellFormed_cons (by decide) (wellFormed_append (wellFormed_escape s) rfl)

mutual

/-- The text of a value has no lone surrogates. -/
theorem wellFormed_text (v : Value ν) : wellFormed (v.text N) = true := by
  match v with
  | .null => rw [Value.text]; rfl
  | .bool b => rw [Value.text]; cases b <;> rfl
  | .num x =>
      rw [Value.text]
      split
      · rename_i hfin
        have hunits := (isNumber_units (N.isNumber_text x hfin)).2
        exact (isTokenUnit_ascii fun u hu => isTokenUnit_of_number (hunits u hu)).wellFormed
      · rfl
  | .str s => rw [Value.text]; exact wellFormed_quote s
  | .arr [] => rw [Value.text]; rfl
  | .arr (w :: rest) =>
      rw [Value.text]
      exact wellFormed_cons (by decide)
        (wellFormed_append (wellFormed_text w) (wellFormed_moreItems rest))
  | .obj [] => rw [Value.text]; rfl
  | .obj ((key, w) :: rest) =>
      rw [Value.text]
      exact wellFormed_cons (by decide) (wellFormed_append (wellFormed_quote key)
        (wellFormed_cons (by decide)
          (wellFormed_append (wellFormed_text w) (wellFormed_moreFields rest))))

theorem wellFormed_moreItems (items : List (Value ν)) : wellFormed (moreItems N items) = true := by
  match items with
  | [] => rw [moreItems]; rfl
  | w :: rest =>
      rw [moreItems]
      exact wellFormed_cons (by decide)
        (wellFormed_append (wellFormed_text w) (wellFormed_moreItems rest))

theorem wellFormed_moreFields (fields : List (CodeUnits × Value ν)) :
    wellFormed (moreFields N fields) = true := by
  match fields with
  | [] => rw [moreFields]; rfl
  | (key, w) :: rest =>
      rw [moreFields]
      exact wellFormed_cons (by decide) (wellFormed_append (wellFormed_quote key)
        (wellFormed_cons (by decide)
          (wellFormed_append (wellFormed_text w) (wellFormed_moreFields rest))))

end

/-! ## The integers -/

def decimal (n : ℕ) : CodeUnits :=
  if n = 0 then [48] else (Nat.digits 10 n).reverse.map fun d => .ofNat (48 + d)

def decimalValue (s : CodeUnits) : ℕ := Nat.ofDigits 10 (s.reverse.map fun u => u.toNat - 48)

/-- A decimal has a first digit, and no leading zero. -/
theorem decimal_cons (n : ℕ) : ∃ d more, decimal n = d :: more ∧
    (∀ u ∈ d :: more, isDigitUnit u = true) ∧ (d ≠ 48 ∨ more = []) := by
  by_cases hn : n = 0
  · exact ⟨48, [], by rw [decimal, if_pos hn], List.forall_mem_singleton.mpr (by decide), .inr rfl⟩
  · have hne := Nat.digits_ne_nil_iff_ne_zero (b := 10).mpr hn
    have hlast := Nat.getLast_digit_ne_zero 10 hn
    have hlt : ∀ d ∈ Nat.digits 10 n, d < 10 := fun d hd => Nat.digits_lt_base (by decide) hd
    have hunit : ∀ d < 10, (UInt16.ofNat (48 + d)).toNat = 48 + d := by decide
    have hdecimal : decimal n = .ofNat (48 + (Nat.digits 10 n).getLast hne)
        :: (Nat.digits 10 n).dropLast.reverse.map fun d => .ofNat (48 + d) := by
      rw [decimal, if_neg hn]
      conv_lhs => rw [← List.dropLast_append_getLast hne]
      rw [List.reverse_append, List.reverse_singleton, List.singleton_append, List.map_cons]
    refine ⟨_, _, hdecimal, ?_, .inl fun h => hlast ?_⟩
    · rw [← hdecimal, decimal, if_neg hn]
      intro u hu
      obtain ⟨d, hd, rfl⟩ := List.mem_map.mp hu
      have hd := hlt d (List.mem_reverse.mp hd)
      simp only [isDigitUnit, hunit d hd, Bool.and_eq_true, decide_eq_true_eq]
      omega
    · have hd := hunit _ (hlt _ (List.getLast_mem hne))
      rw [h, show (48 : UInt16).toNat = 48 from rfl] at hd
      omega

theorem isUnsigned_decimal (n : ℕ) : isUnsigned (decimal n) = true := by
  obtain ⟨d, more, hdecimal, hdigits, hfirst⟩ := decimal_cons n
  rw [hdecimal, isUnsigned, List.takeWhile_eq_self_iff.mpr hdigits,
    List.dropWhile_eq_nil_iff.mpr hdigits]
  rcases hfirst with hd | rfl
  · simp [hd, isFraction, isExponent]
  · simp [isFraction, isExponent]

theorem decimalValue_decimal (n : ℕ) : decimalValue (decimal n) = n := by
  by_cases hn : n = 0
  · rw [hn]
    rfl
  · have hunit : ∀ d ∈ Nat.digits 10 n, ((fun u : UInt16 => u.toNat - 48) ∘ fun d =>
        UInt16.ofNat (48 + d)) d = id d := by
      intro d hd
      have hlt := Nat.digits_lt_base (by decide) hd
      have hall : ∀ d < 10, (UInt16.ofNat (48 + d)).toNat - 48 = d := by decide
      exact hall d hlt
    rw [decimalValue, decimal, if_neg hn, ← List.map_reverse, List.reverse_reverse, List.map_map,
      List.map_congr_left hunit, List.map_id, Nat.ofDigits_digits]

theorem decimal_ne_minus (n : ℕ) (rest : CodeUnits) : decimal n ≠ 45 :: rest := by
  intro h
  obtain ⟨d, more, hdecimal, hdigits, -⟩ := decimal_cons n
  have hminus : d = 45 := (List.cons.inj (hdecimal.symm.trans h)).1
  have hdigit := hdigits d List.mem_cons_self
  rw [hminus] at hdigit
  cases hdigit

def integerText (z : ℤ) : CodeUnits := if z < 0 then 45 :: decimal z.natAbs else decimal z.natAbs

def integerValue : CodeUnits → ℤ
  | 45 :: digits => -(decimalValue digits : ℤ)
  | digits => decimalValue digits

/-- The text of an integer is a number. -/
theorem isNumber_integerText (z : ℤ) : isNumber (integerText z) = true := by
  rw [integerText]
  split
  · exact isUnsigned_decimal z.natAbs
  · unfold isNumber
    split
    · rename_i rest h
      exact absurd h (decimal_ne_minus _ rest)
    · exact isUnsigned_decimal z.natAbs

/-- And it is read as that integer. -/
theorem integerValue_integerText (z : ℤ) : integerValue (integerText z) = z := by
  rw [integerText]
  split
  · rw [integerValue, decimalValue_decimal]
    omega
  · unfold integerValue
    split
    · rename_i rest h
      exact absurd h (decimal_ne_minus _ rest)
    · rw [decimalValue_decimal]
      omega

/-- The integers are numbers, all of them finite. -/
def integers : Numbers ℤ where
  isFinite := fun _ => true
  text := integerText
  value := integerValue
  isNumber_text := fun z _ => isNumber_integerText z
  value_text := fun z _ => integerValue_integerText z

end JsonText
