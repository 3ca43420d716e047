/-
# Paths of URLs

The absolute paths of URLs as bytes: the percent encoding of a segment, the segments of a path,
the removal of dot segments by a client, and what a server does with a path, which it cleans,
redirects when that changes it, and matches with its patterns.  A segment that was escaped is
read as the bytes it was made of (`unescape_escape`), and a path without dots is matched as it
is (`findHandler_ofSegments`).
-/
import Mathlib.Data.List.Basic
import Mathlib.Data.UInt

namespace UriPath

abbrev Bytes : Type := List UInt8

/-! ## Percent encoding -/

def hexDigit (n : ℕ) : UInt8 := if n < 10 then .ofNat (48 + n) else .ofNat (55 + n)

/-- The bytes that are not kept are written as their two hexadecimal digits. -/
def escape (keep : UInt8 → Bool) : Bytes → Bytes
  | [] => []
  | b :: rest =>
      if keep b then b :: escape keep rest
      else 37 :: hexDigit (b.toNat / 16) :: hexDigit (b.toNat % 16) :: escape keep rest

def hexValue (b : UInt8) : Option ℕ :=
  let n := b.toNat
  if 48 ≤ n ∧ n ≤ 57 then some (n - 48)
  else if 97 ≤ n ∧ n ≤ 102 then some (n - 87)
  else if 65 ≤ n ∧ n ≤ 70 then some (n - 55)
  else none

/-- The bytes that are written, `none` when a percent sign is not followed by two digits. -/
def unescape : Bytes → Option Bytes
  | [] => some []
  | b :: rest =>
      if b = 37 then
        match rest with
        | d :: e :: rest => do
            let high ← hexValue d
            let low ← hexValue e
            let more ← unescape rest
            return .ofNat (high * 16 + low) :: more
        | _ => none
      else (unescape rest).map (b :: ·)

variable {keep : UInt8 → Bool}

theorem unescape_cons {b : UInt8} (h : b ≠ 37) (rest : Bytes) :
    unescape (b :: rest) = (unescape rest).map (b :: ·) := by
  conv_lhs => unfold unescape
  exact if_neg h

/-- Text that is unescaped is unescaped before whatever follows. -/
theorem unescape_append {s t bs : Bytes} (h : unescape s = some bs) :
    unescape (s ++ t) = (unescape t).map (bs ++ ·) := by
  induction s using unescape.induct generalizing bs with
  | case1 =>
      rw [← Option.some_inj.mp h]
      exact Option.map_id'.symm
  | case2 d e rest ih =>
      unfold unescape at h
      simp only [if_true, Option.bind_eq_bind, Option.bind_eq_some_iff] at h
      obtain ⟨high, hhigh, low, hlow, more, hmore, hbs⟩ := h
      rw [← Option.some_inj.mp hbs]
      conv_lhs => unfold unescape
      simp only [List.cons_append, if_true, hhigh, hlow, ih hmore, Option.bind_eq_bind,
        Option.bind_some, Option.map_eq_bind, Option.bind_assoc, Function.comp]
      rfl
  | case3 rest hrest =>
      -- too short for two digits
      match rest with
      | [] => cases h
      | [_] => cases h
      | d :: e :: rest => exact (hrest d e rest rfl).elim
  | case4 b rest hb ih =>
      rw [unescape_cons hb] at h
      obtain ⟨more, hmore, rfl⟩ := Option.map_eq_some_iff.mp h
      rw [List.cons_append, unescape_cons hb, ih hmore, Option.map_map]
      rfl

theorem hexValue_hexDigit : ∀ n < 16, hexValue (hexDigit n) = some n := by decide

/-- What is escaped is read back. -/
theorem unescape_escape (hkeep : keep 37 = false) (bs : Bytes) :
    unescape (escape keep bs) = some bs := by
  induction bs with
  | nil => rfl
  | cons b bs ih =>
      rw [escape]
      split
      · rename_i hb
        have hne : b ≠ 37 := by
          rintro rfl
          rw [hkeep] at hb
          cases hb
        rw [unescape_cons hne, ih, Option.map_some]
      · have hlt := b.toNat_lt
        rw [unescape, if_pos rfl]
        simp only [hexValue_hexDigit _ (show b.toNat / 16 < 16 by omega),
          hexValue_hexDigit _ (show b.toNat % 16 < 16 by omega), ih]
        have hvalue : b.toNat / 16 * 16 + b.toNat % 16 = b.toNat := by omega
        simp only [Option.bind_eq_bind, Option.bind_some, hvalue, UInt8.ofNat_toNat]
        rfl

/-- An escaped text has the bytes that are kept, percent signs and digits. -/
theorem mem_escape {bs : Bytes} {b : UInt8} (h : b ∈ escape keep bs) :
    keep b = true ∨ b = 37 ∨ ∃ n < 16, b = hexDigit n := by
  induction bs with
  | nil => cases h
  | cons c bs ih =>
      rw [escape] at h
      split at h
      · rename_i hc
        rcases List.mem_cons.mp h with rfl | h
        · exact .inl hc
        · exact ih h
      · have hlt := c.toNat_lt
        rcases List.mem_cons.mp h with rfl | h
        · exact .inr (.inl rfl)
        rcases List.mem_cons.mp h with rfl | h
        · exact .inr (.inr ⟨_, by omega, rfl⟩)
        rcases List.mem_cons.mp h with rfl | h
        · exact .inr (.inr ⟨_, by omega, rfl⟩)
        · exact ih h

/-- An escaped text is short only when it is what it was made of. -/
theorem escape_eq_short {bs s : Bytes} (hs : ∀ b ∈ s, b ≠ 37) (h : escape keep bs = s) :
    bs = s := by
  induction bs generalizing s with
  | nil => exact h
  | cons b bs ih =>
      rw [escape] at h
      split at h
      · cases s with
        | nil => cases h
        | cons c s =>
            obtain ⟨rfl, hrest⟩ := List.cons.inj h
            rw [ih (fun d hd => hs d (List.mem_cons_of_mem _ hd)) hrest]
      · rw [← h] at hs
        exact absurd rfl (hs 37 List.mem_cons_self)

/-! ## Segments -/

/-- The path with these segments. -/
def ofSegments (segs : List Bytes) : Bytes := 47 :: [47].intercalate segs

/-- What is between the slashes of a path. -/
def segments (path : Bytes) : List Bytes :=
  (if path.head? = some 47 then path.tail else path).splitOn 47

theorem ofSegments_cons (s t : Bytes) (rest : List Bytes) :
    ofSegments (s :: t :: rest) = 47 :: s ++ ofSegments (t :: rest) := by
  rw [ofSegments, List.intercalate_cons_cons, List.append_assoc]
  rfl

/-- A path has slashes and the bytes of its segments. -/
theorem mem_ofSegments {segs : List Bytes} {b : UInt8} (h : b ∈ ofSegments segs) :
    b = 47 ∨ ∃ s ∈ segs, b ∈ s := by
  induction segs with
  | nil => exact .inl (List.mem_singleton.mp h)
  | cons s segs ih =>
      cases segs with
      | nil =>
          rcases List.mem_cons.mp h with rfl | h
          · exact .inl rfl
          · rw [List.intercalate_singleton] at h
            exact .inr ⟨s, List.mem_cons_self, h⟩
      | cons t rest =>
          rw [ofSegments_cons, List.cons_append, List.mem_cons, List.mem_append] at h
          rcases h with rfl | h | h
          · exact .inl rfl
          · exact .inr ⟨s, List.mem_cons_self, h⟩
          · exact (ih h).imp_right fun ⟨r, hr, hb⟩ => ⟨r, List.mem_cons_of_mem _ hr, hb⟩

/-- A path reads when its segments do. -/
theorem unescape_ofSegments {segs : List Bytes} (h : ∀ s ∈ segs, (unescape s).isSome = true) :
    (unescape (ofSegments segs)).isSome = true := by
  induction segs with
  | nil => rfl
  | cons s segs ih =>
      obtain ⟨bs, hbs⟩ := Option.isSome_iff_exists.mp (h s List.mem_cons_self)
      have hslash : ∀ t, unescape (47 :: s ++ t) = ((unescape t).map (bs ++ ·)).map (47 :: ·) := by
        intro t
        rw [List.cons_append, unescape_cons (by decide), unescape_append hbs]
      cases segs with
      | nil =>
          have hone := hslash []
          rw [List.append_nil] at hone
          rw [ofSegments, List.intercalate_singleton, hone]
          rfl
      | cons t rest =>
          rw [ofSegments_cons, hslash, Option.isSome_map, Option.isSome_map]
          exact ih fun r hr => h r (List.mem_cons_of_mem _ hr)

/-- A path is cut where its segments were joined. -/
theorem segments_ofSegments {segs : List Bytes} (hne : segs ≠ []) (h : ∀ s ∈ segs, 47 ∉ s) :
    segments (ofSegments segs) = segs := by
  rw [segments, ofSegments, List.head?_cons, if_pos rfl, List.tail_cons,
    List.splitOn_intercalate 47 h hne]

/-! ## Dot segments -/

def lowercase (b : UInt8) : UInt8 := if 65 ≤ b ∧ b ≤ 90 then b + 32 else b

def isSingleDot (s : Bytes) : Bool := s.map lowercase ∈ [[46], [37, 50, 101]]

def isDoubleDot (s : Bytes) : Bool :=
  s.map lowercase ∈ [[46, 46], [46, 37, 50, 101], [37, 50, 101, 46], [37, 50, 101, 37, 50, 101]]

theorem lowercase_eq {b c : UInt8} (h : lowercase b = c) : b = c ∨ 97 ≤ c ∧ b = c - 32 := by
  unfold lowercase at h
  split at h
  · rename_i hb
    right
    simp only [UInt8.le_iff_toNat_le, ← UInt8.toNat_inj, UInt8.toNat_add, UInt8.toNat_sub,
      UInt8.reduceToNat] at hb h ⊢
    omega
  · exact .inl h

/-- A dot segment stands for a dot, or for two. -/
theorem unescape_dot {s : Bytes} (h : isSingleDot s = true ∨ isDoubleDot s = true) :
    unescape s = some [46] ∨ unescape s = some [46, 46] := by
  have hdot : ∀ {b : UInt8}, lowercase b = 46 → b = 46 := fun hb =>
    (lowercase_eq hb).resolve_right fun hc => absurd hc.1 (by decide)
  have hpercent : ∀ {b : UInt8}, lowercase b = 37 → b = 37 := fun hb =>
    (lowercase_eq hb).resolve_right fun hc => absurd hc.1 (by decide)
  have htwo : ∀ {b : UInt8}, lowercase b = 50 → b = 50 := fun hb =>
    (lowercase_eq hb).resolve_right fun hc => absurd hc.1 (by decide)
  have hescaped : ∀ {b : UInt8} {rest more : Bytes}, lowercase b = 101 → unescape rest = some more →
      unescape (37 :: 50 :: b :: rest) = some (46 :: more) := by
    intro b rest more hb hmore
    have hvalue : hexValue b = some 14 := by
      rcases lowercase_eq hb with rfl | ⟨-, rfl⟩ <;> rfl
    unfold unescape
    simp only [hvalue, hmore]
    rfl
  have hplain : ∀ {rest more : Bytes}, unescape rest = some more →
      unescape (46 :: rest) = some (46 :: more) := by
    intro rest more hmore
    rw [unescape_cons (by decide), hmore, Option.map_some]
  simp only [isSingleDot, isDoubleDot, List.mem_cons, List.not_mem_nil, or_false,
    List.map_eq_cons_iff, List.map_eq_nil_iff, decide_eq_true_eq] at h
  rcases h with (⟨a, _, rfl, ha, rfl⟩ | ⟨a, _, rfl, ha, b, _, rfl, hb, c, _, rfl, hc, rfl⟩) |
    ⟨a, _, rfl, ha, b, _, rfl, hb, rfl⟩ |
    ⟨a, _, rfl, ha, b, _, rfl, hb, c, _, rfl, hc, d, _, rfl, hd, rfl⟩ |
    ⟨a, _, rfl, ha, b, _, rfl, hb, c, _, rfl, hc, d, _, rfl, hd, rfl⟩ |
    ⟨a, _, rfl, ha, b, _, rfl, hb, c, _, rfl, hc, d, _, rfl, hd, e, _, rfl, he, f, _, rfl, hf, rfl⟩
  · rw [hdot ha]
    exact .inl (hplain rfl)
  · rw [hpercent ha, htwo hb]
    exact .inl (hescaped hc rfl)
  · rw [hdot ha, hdot hb]
    exact .inr (hplain (hplain rfl))
  · rw [hdot ha, hpercent hb, htwo hc]
    exact .inr (hplain (hescaped hd rfl))
  · rw [hpercent ha, htwo hb, hdot hd]
    exact .inr (hescaped hc (hplain rfl))
  · rw [hpercent ha, htwo hb, hpercent hd, htwo he]
    exact .inr (hescaped hc (hescaped hf rfl))

/-- The segments of a path that a client reads; the ones it has, newest first, and the ones to
come.  A dot at the end leaves an empty segment. -/
def removeDots : List Bytes → List Bytes → List Bytes
  | done, [] => done.reverse
  | done, [s] =>
      if isDoubleDot s then ([] :: done.tail).reverse
      else if isSingleDot s then ([] :: done).reverse
      else (s :: done).reverse
  | done, s :: t :: rest =>
      if isDoubleDot s then removeDots done.tail (t :: rest)
      else if isSingleDot s then removeDots done (t :: rest)
      else removeDots (s :: done) (t :: rest)

/-- Segments without dots stay. -/
theorem removeDots_plain {segs : List Bytes} (done : List Bytes)
    (h : ∀ s ∈ segs, isSingleDot s = false ∧ isDoubleDot s = false) :
    removeDots done segs = done.reverse ++ segs := by
  induction done, segs using removeDots.induct with
  | case1 done => rw [removeDots, List.append_nil]
  | case2 done s hs => rw [(h s List.mem_cons_self).2] at hs; cases hs
  | case3 done s hs hs' => rw [(h s List.mem_cons_self).1] at hs'; cases hs'
  | case4 done s hs hs' => rw [removeDots, if_neg hs, if_neg hs', List.reverse_cons]
  | case5 done s t rest hs ih => rw [(h s List.mem_cons_self).2] at hs; cases hs
  | case6 done s t rest hs hs' ih => rw [(h s List.mem_cons_self).1] at hs'; cases hs'
  | case7 done s t rest hs hs' ih =>
      rw [removeDots, if_neg hs, if_neg hs', ih fun r hr => h r (List.mem_cons_of_mem _ hr),
        List.reverse_cons, List.append_assoc, List.singleton_append]

/-! ## A server's paths -/

/-- The segments of a clean path; the ones there are, newest first, and the ones to come. -/
def cleanFrom : List Bytes → List Bytes → List Bytes
  | done, [] => done.reverse
  | done, s :: rest =>
      if s = [] ∨ s = [46] then cleanFrom done rest
      else if s = [46, 46] then cleanFrom done.tail rest
      else cleanFrom (s :: done) rest

/-- A path without empty segments and dots.  A slash at its end stays. -/
def clean (segs : List Bytes) : List Bytes :=
  let kept := cleanFrom [] segs
  if kept = [] then [[]]
  else if segs.getLast? = some [] then kept ++ [[]]
  else kept

/-- A segment that cleaning keeps. -/
def Kept (s : Bytes) : Prop := s ≠ [] ∧ s ≠ [46] ∧ s ≠ [46, 46]

theorem cleanFrom_kept {segs : List Bytes} (done : List Bytes) (h : ∀ s ∈ segs, Kept s) :
    cleanFrom done segs = done.reverse ++ segs := by
  induction segs generalizing done with
  | nil => rw [cleanFrom, List.append_nil]
  | cons s rest ih =>
      obtain ⟨hempty, hdot, hdots⟩ := h s List.mem_cons_self
      rw [cleanFrom, if_neg (not_or.mpr ⟨hempty, hdot⟩), if_neg hdots,
        ih _ fun r hr => h r (List.mem_cons_of_mem _ hr), List.reverse_cons, List.append_assoc,
        List.singleton_append]

/-- A path of plain segments is clean. -/
theorem clean_kept {segs : List Bytes} (hne : segs ≠ []) (h : ∀ s ∈ segs, Kept s) :
    clean segs = segs := by
  have hlast : segs.getLast? ≠ some [] := fun hlast =>
    (h _ (List.mem_of_getLast? hlast)).1 rfl
  unfold clean
  simp only [cleanFrom_kept [] h, List.reverse_nil, List.nil_append, if_neg hne, if_neg hlast]

/-! ## Patterns -/

inductive Method where
  | get
  | head
  | post
  | other (name : String)
  deriving DecidableEq

inductive Segment where
  | lit (s : Bytes)
  | wild
  deriving DecidableEq

/-- A pattern of a server: `method` is `none` for any, and `subtree` says that it ends in a
slash. -/
structure Pattern (α : Type) where
  method : Option Method
  segments : List Segment
  subtree : Bool
  handler : α

/-- `GET` stands for `HEAD` too. -/
def Pattern.admits {α : Type} (p : Pattern α) (m : Method) : Bool :=
  p.method = none || p.method = some m || (p.method = some .get && m = .head)

/-- The bytes of a segment, as it stands when it is escaped badly. -/
def plain (s : Bytes) : Bytes := (unescape s).getD s

/-- The values of the wildcards, when the segments of a path match.  A wildcard stands for no
slash at the end, and for no segment that reads as a slash. -/
def matchSegments (subtree : Bool) : List Segment → List Bytes → Option (List Bytes)
  | [], rest => if rest = [] ∨ subtree = true then some [] else none
  | _ :: _, [] => none
  | .lit s :: ps, seg :: segs => if plain seg = s then matchSegments subtree ps segs else none
  | .wild :: ps, seg :: segs =>
      if seg = [] ∧ segs = [] ∨ plain seg = [47] then none
      else (matchSegments subtree ps segs).map (plain seg :: ·)

/-- Literal segments match the segments that stand for them. -/
theorem matchSegments_lit (lits segs : List Bytes) :
    matchSegments false (lits.map .lit) segs = if segs.map plain = lits then some [] else none := by
  induction lits generalizing segs with
  | nil =>
      cases segs with
      | nil => rfl
      | cons s segs => rfl
  | cons l lits ih =>
      cases segs with
      | nil => rfl
      | cons s segs =>
          simp only [List.map_cons, matchSegments, List.cons.injEq]
          by_cases hs : plain s = l
          · rw [if_pos hs, ih]
            exact if_congr (and_iff_right hs).symm rfl rfl
          · rw [if_neg hs, if_neg fun h => hs h.1]

/-- A wildcard between literal segments has the value of the segment in its place. -/
theorem matchSegments_wild {root : Bytes} {lits : List Bytes} {s seg : Bytes} {segs : List Bytes}
    (hseg : seg ≠ []) (hslash : plain seg ≠ [47]) :
    matchSegments false (.lit root :: .wild :: lits.map .lit) (s :: seg :: segs)
      = if plain s = root ∧ segs.map plain = lits then some [plain seg] else none := by
  simp only [matchSegments, hseg, hslash, false_and, or_self, if_false, matchSegments_lit]
  by_cases hs : plain s = root
  · rw [if_pos hs]
    by_cases hsegs : segs.map plain = lits
    · rw [if_pos hsegs, if_pos ⟨hs, hsegs⟩]
      rfl
    · rw [if_neg hsegs, if_neg fun h => hsegs h.2]
      rfl
  · rw [if_neg hs, if_neg fun h => hs h.1]

/-- What a server does with a request. -/
inductive Dispatch (α : Type) where
  | redirect (path : Bytes)
  | found (handler : α) (values : List Bytes)
  | methodNotAllowed
  | notFound
  deriving DecidableEq

/-- The pattern for the segments of a clean path.  The patterns stand in the order of their
precedence. -/
def lookup {α : Type} (patterns : List (Pattern α)) (m : Method) (segs : List Bytes) : Dispatch α :=
  let found := patterns.findSome? fun p =>
    if p.admits m then (matchSegments p.subtree p.segments segs).map (p.handler, ·) else none
  match found with
  | some (handler, values) => .found handler values
  | none =>
      if patterns.any fun p => (matchSegments p.subtree p.segments segs).isSome then
        .methodNotAllowed
      else .notFound

/-- The handler of a path, which is redirected when it is not clean. -/
def findHandler {α : Type} (patterns : List (Pattern α)) (m : Method) (path : Bytes) : Dispatch α :=
  let segs := clean (segments path)
  if ofSegments segs ≠ path then .redirect (ofSegments segs) else lookup patterns m segs

/-- The handler of a path of plain segments is that of its segments. -/
theorem findHandler_ofSegments {α : Type} {patterns : List (Pattern α)} {m : Method}
    {segs : List Bytes} (hne : segs ≠ []) (hslash : ∀ s ∈ segs, 47 ∉ s)
    (hkept : ∀ s ∈ segs, Kept s) :
    findHandler patterns m (ofSegments segs) = lookup patterns m segs := by
  unfold findHandler
  simp only [segments_ofSegments hne hslash, clean_kept hne hkept, ne_eq, not_true_eq_false,
    if_false]

end UriPath
