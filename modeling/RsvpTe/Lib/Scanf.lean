import Mathlib.Data.List.Basic
import RsvpTe.Lib.Words

/-!
# Reading text by a format

`sscanf` over bytes, for formats of white space, literal text, words and unsigned numbers.  A word
has the field width of its `%Ns` and the size of the buffer it is stored in.  Where it does not fit
the buffer, the result is `none`; a format whose widths are below its sizes never comes there
(`sscanf_ne_none`), and any other only with a word that is too long (`exists_of_sscanf_eq_none`).

A line that is printed piece by piece is read piece by piece: `sscanf_space`, `sscanf_text`,
`sscanf_word` and `sscanf_unsigned`.
-/

namespace Scanf

def isSpace (c : UInt8) : Bool := c = 32 ∨ (9 ≤ c ∧ c ≤ 13)

def isDigit (c : UInt8) : Bool := 48 ≤ c ∧ c ≤ 57

inductive Directive : Type
  | space
  | literal (c : UInt8)
  | word (width size : Nat)
  | unsigned
  deriving DecidableEq

inductive Field : Type
  | word (bytes : Bytes)
  | unsigned (value : UInt32)
  deriving DecidableEq

/-- The value of decimal digits. -/
def number (digits : Bytes) : Nat := digits.foldl (fun n c => 10 * n + (c.toNat - 48)) 0

/-- `strtoul`, stored as an `unsigned int`: 64 bits that saturate, and a sign that negates. -/
def strtoul (negative : Bool) (digits : Bytes) : UInt32 :=
  if 2 ^ 64 ≤ number digits then UInt32.ofNat (2 ^ 64 - 1)
  else if negative then UInt32.ofNat (2 ^ 64 - number digits)
  else UInt32.ofNat (number digits)

/-- An optional sign. -/
def signed (s : Bytes) : Bool × Bytes :=
  if s.head? = some 45 then (true, s.tail)
  else if s.head? = some 43 then (false, s.tail)
  else (false, s)

/-- One directive: what it converts and what is left, or nothing if it does not match. -/
def Directive.read : Directive → Bytes → Option (Option Field × Bytes)
  | .space, s => some (none, s.dropWhile isSpace)
  | .literal c, s => if s.head? = some c then some (none, s.tail) else none
  | .word width _, s =>
    let s := s.dropWhile isSpace
    let w := (s.take width).takeWhile fun c => !isSpace c
    if w = [] then none else some (some (.word w), s.drop w.length)
  | .unsigned, s =>
    let (negative, s) := signed (s.dropWhile isSpace)
    let digits := s.takeWhile isDigit
    if digits = [] then none
    else some (some (.unsigned (strtoul negative digits)), s.drop digits.length)

/-- A word and its NUL fit the buffer. -/
def Directive.holds : Directive → Field → Bool
  | .word _ size, .word w => w.length < size
  | _, _ => true

/-- The bytes of a word. -/
def Graphic (w : Bytes) : Prop := ∀ c ∈ w, isSpace c = false

/-- The fields converted before the first directive that does not match; `none` if one of them
does not fit its buffer. -/
def sscanf : List Directive → Bytes → Option (List Field)
  | [], _ => some []
  | d :: ds, s =>
    match d.read s with
    | none => some []
    | some (none, rest) => sscanf ds rest
    | some (some field, rest) =>
      if d.holds field then (sscanf ds rest).map (field :: ·) else none

/-- The directives of literal text. -/
def text (s : Bytes) : List Directive := s.map .literal

/-! ## Formats that keep to their buffers -/

def Directive.Fits : Directive → Prop
  | .word width size => width < size
  | _ => True

instance : DecidablePred Directive.Fits
  | .word width size => inferInstanceAs (Decidable (width < size))
  | .space | .literal _ | .unsigned => inferInstanceAs (Decidable True)

theorem signed_split (s : Bytes) : ∃ sign, s = sign ++ (signed s).2 := by
  unfold signed
  split
  · rename_i first
    exact ⟨[45], List.eq_cons_of_mem_head? first⟩
  · split
    · rename_i first
      exact ⟨[43], List.eq_cons_of_mem_head? first⟩
    · exact ⟨[], rfl⟩

/-- What a directive leaves is the end of the text; a word lies right before it. -/
theorem Directive.read_split {d : Directive} {s rest : Bytes} {field : Option Field}
    (found : d.read s = some (field, rest)) :
    ∃ front, s = front ++ rest ∧ ∀ width size, d = .word width size → ∃ skipped w,
      front = skipped ++ w ∧ field = some (.word w) ∧ w.length ≤ width ∧ Graphic w := by
  cases d with
  | space =>
    cases found
    exact ⟨_, List.takeWhile_append_dropWhile.symm, fun _ _ => Directive.noConfusion⟩
  | literal c =>
    rw [read] at found
    split at found
    · rename_i first
      cases found
      exact ⟨[c], List.eq_cons_of_mem_head? first, fun _ _ => Directive.noConfusion⟩
    · cases found
  | word width size =>
    unfold read at found
    dsimp only at found
    split at found
    · cases found
    · cases found
      have start : (((s.dropWhile isSpace).take width).takeWhile fun c => !isSpace c) <+:
          s.dropWhile isSpace :=
        (List.takeWhile_prefix _).trans (List.take_prefix width _)
      have narrow := (List.takeWhile_prefix (l := (s.dropWhile isSpace).take width)
        fun c => !isSpace c).length_le
      refine ⟨s.takeWhile isSpace ++
        ((s.dropWhile isSpace).take width).takeWhile fun c => !isSpace c,
        ?_, fun width' size' same => ?_⟩
      · rw [List.append_assoc, List.prefix_iff_eq_append.mp start, List.takeWhile_append_dropWhile]
      · cases same
        refine ⟨_, _, rfl, rfl, Nat.le_trans narrow (List.length_take_le _ _), fun c mem => ?_⟩
        have kept := List.all_eq_true.mp List.all_takeWhile c mem
        rw [Bool.not_eq_true'] at kept
        exact kept
  | unsigned =>
    unfold read at found
    dsimp only at found
    split at found
    · cases found
    · cases found
      have digits := List.takeWhile_prefix (l := (signed (s.dropWhile isSpace)).2) isDigit
      obtain ⟨sign, front⟩ := signed_split (s.dropWhile isSpace)
      refine ⟨s.takeWhile isSpace ++ (sign ++ (signed (s.dropWhile isSpace)).2.takeWhile isDigit),
        ?_, fun _ _ => Directive.noConfusion⟩
      rw [List.append_assoc, List.append_assoc, List.prefix_iff_eq_append.mp digits, ← front,
        List.takeWhile_append_dropWhile]

/-- Where a buffer is overrun, a word of the text is too long for it. -/
theorem exists_of_sscanf_eq_none {format : List Directive} {s : Bytes}
    (overrun : sscanf format s = none) : ∃ width size front w rest,
      .word width size ∈ format ∧ s = front ++ (w ++ rest) ∧ size ≤ w.length ∧ w.length ≤ width ∧
        Graphic w := by
  induction format generalizing s with
  | nil => cases overrun
  | cons d format ih =>
    have later : ∀ front rest, s = front ++ rest → sscanf format rest = none →
        ∃ width size front w rest, .word width size ∈ d :: format ∧ s = front ++ (w ++ rest) ∧
          size ≤ w.length ∧ w.length ≤ width ∧ Graphic w := by
      intro front rest whole none
      obtain ⟨width, size, front', w, rest', mem, split, long⟩ := ih none
      refine ⟨width, size, front ++ front', w, rest', List.mem_cons_of_mem _ mem, ?_, long⟩
      rw [whole, split, List.append_assoc]
    unfold sscanf at overrun
    split at overrun
    · cases overrun
    · rename_i found
      obtain ⟨front, whole, -⟩ := d.read_split found
      exact later front _ whole overrun
    · rename_i field rest found
      obtain ⟨front, whole, words⟩ := d.read_split found
      split at overrun
      · exact later front rest whole (Option.map_eq_none_iff.mp overrun)
      · rename_i held
        cases d with
        | word width size =>
          obtain ⟨skipped, w, rfl, same, narrow, graphic⟩ := words width size rfl
          cases same
          refine ⟨width, size, skipped, w, rest, List.mem_cons_self, ?_, ?_, narrow, graphic⟩
          · rw [whole, List.append_assoc]
          · exact Nat.not_lt.mp fun short => held (decide_eq_true short)
        | space => exact absurd rfl held
        | literal => exact absurd rfl held
        | unsigned => exact absurd rfl held

theorem sscanf_ne_none {format : List Directive} (fits : ∀ d ∈ format, d.Fits) (s : Bytes) :
    sscanf format s ≠ none := by
  intro overrun
  obtain ⟨width, size, -, w, -, mem, -, long, narrow, -⟩ := exists_of_sscanf_eq_none overrun
  have fit : width < size := fits _ mem
  omega

/-! ## Reading what was printed -/

variable {format : List Directive} {d : Directive} {s w : Bytes}

/-- Where a word or a number ends: the end of the text, or a space. -/
def Ends (s : Bytes) : Prop := ∀ c ∈ s.head?, isSpace c = true

/-- No space comes first. -/
def Starts (s : Bytes) : Prop := ∀ c ∈ s.head?, isSpace c = false

theorem ends_nil : Ends [] := fun _ mem => by cases mem

theorem ends_cons (s : Bytes) : Ends (32 :: s) := fun _ mem => by
  cases mem
  rfl

theorem starts_append (some_ : w ≠ []) (graphic : Graphic w) (s : Bytes) : Starts (w ++ s) := by
  intro c mem
  obtain ⟨a, w, rfl⟩ := List.exists_cons_of_ne_nil some_
  cases mem
  exact graphic _ List.mem_cons_self

theorem Graphic.starts (graphic : Graphic w) : Starts w := by
  intro c mem
  exact graphic c (List.mem_of_mem_head? mem)

theorem Starts.dropWhile (starts : Starts s) : s.dropWhile isSpace = s := by
  cases s with
  | nil => rfl
  | cons c s => exact List.dropWhile_cons_of_neg (by rw [starts c rfl]; exact Bool.false_ne_true)

/-- Every directive but literal text skips white space. -/
theorem sscanf_blank {blank : Bytes} (skips : ∀ c, d ≠ .literal c)
    (spaces : ∀ c ∈ blank, isSpace c = true) :
    sscanf (d :: format) (blank ++ s) = sscanf (d :: format) s := by
  have skipped : (blank ++ s).dropWhile isSpace = s.dropWhile isSpace :=
    List.dropWhile_append_of_pos spaces
  cases d with
  | literal c => exact absurd rfl (skips c)
  | space => rw [sscanf, sscanf, Directive.read, Directive.read, skipped]
  | word => rw [sscanf, sscanf, Directive.read, Directive.read, skipped]
  | unsigned => rw [sscanf, sscanf, Directive.read, Directive.read, skipped]

/-- A space of the format matches a space. -/
theorem sscanf_space (starts : Starts s) :
    sscanf (.space :: format) (32 :: s) = sscanf format s := by
  have blank := @sscanf_blank format .space s [32] (fun _ => Directive.noConfusion)
    (List.forall_mem_singleton.mpr rfl)
  refine blank.trans ?_
  rw [sscanf, Directive.read, starts.dropWhile]

theorem sscanf_text (t : Bytes) : sscanf (text t ++ format) (t ++ s) = sscanf format s := by
  induction t with
  | nil => rfl
  | cons c t ih =>
    have read : (Directive.literal c).read (c :: (t ++ s)) = some (none, t ++ s) := if_pos rfl
    rw [text, List.map_cons, List.cons_append, List.cons_append, sscanf, read]
    exact ih

theorem takeWhile_append_of_ends {p : UInt8 → Bool} (inside : ∀ c ∈ w, p c = true)
    (ends : ∀ c ∈ s.head?, p c = false) : (w ++ s).takeWhile p = w := by
  rw [List.takeWhile_append_of_pos inside]
  cases s with
  | nil => rw [List.takeWhile_nil, List.append_nil]
  | cons c s =>
    rw [List.takeWhile_cons_of_neg (by rw [ends c rfl]; exact Bool.false_ne_true), List.append_nil]

/-- A word that is not longer than its width is read as a whole, and stored if it fits. -/
theorem sscanf_word {width size : Nat} (some_ : w ≠ []) (graphic : Graphic w)
    (narrow : w.length ≤ width) (ends : Ends s) :
    sscanf (.word width size :: format) (w ++ s) =
      if w.length < size then (sscanf format s).map (.word w :: ·) else none := by
  have whole : ((w ++ s).take width).takeWhile (fun c => !isSpace c) = w := by
    rw [List.take_append, List.take_of_length_le narrow]
    apply takeWhile_append_of_ends
    · intro c mem
      rw [graphic c mem]
      rfl
    · intro c mem
      rw [List.head?_take] at mem
      split at mem
      · cases mem
      · rw [ends c mem]
        rfl
  have read : (Directive.word width size).read (w ++ s) = some (some (.word w), s) := by
    unfold Directive.read
    dsimp only
    rw [(starts_append some_ graphic s).dropWhile, whole, if_neg some_, List.drop_left' rfl]
  have held : (Directive.word width size).holds (.word w) = true ↔ w.length < size :=
    decide_eq_true_iff
  rw [sscanf, read]
  exact if_congr held rfl rfl

/-- The last word of a line. -/
theorem sscanf_word_end {width size : Nat} (some_ : w ≠ []) (graphic : Graphic w)
    (narrow : w.length ≤ width) :
    sscanf [.word width size] w = if w.length < size then some [.word w] else none := by
  have read := @sscanf_word [] [] w width size some_ graphic narrow ends_nil
  rw [List.append_nil] at read
  exact read

/-! ## Decimal numbers -/

/-- `%u`. -/
def decimal (n : Nat) : Bytes :=
  if n < 10 then [UInt8.ofNat (48 + n)] else decimal (n / 10) ++ [UInt8.ofNat (48 + n % 10)]
  decreasing_by omega

theorem digit_toNat {n : Nat} (lt : n < 10) : (UInt8.ofNat (48 + n)).toNat = 48 + n := by
  rw [UInt8.toNat_ofNat']
  omega

theorem isDigit_digit {n : Nat} (lt : n < 10) : isDigit (UInt8.ofNat (48 + n)) = true := by
  rw [isDigit, decide_eq_true_iff, UInt8.le_iff_toNat_le, UInt8.le_iff_toNat_le, digit_toNat lt]
  exact ⟨Nat.le_add_right 48 n, by change 48 + n ≤ 57; omega⟩

theorem decimal_ne_nil (n : Nat) : decimal n ≠ [] := by
  rw [decimal]
  split
  · exact List.cons_ne_nil _ _
  · exact List.append_ne_nil_of_right_ne_nil _ (List.cons_ne_nil _ _)

theorem isDigit_decimal (n : Nat) : ∀ c ∈ decimal n, isDigit c = true := by
  induction n using decimal.induct with
  | case1 n lt =>
    rw [decimal, if_pos lt]
    exact List.forall_mem_singleton.mpr (isDigit_digit lt)
  | case2 n ge ih =>
    rw [decimal, if_neg ge]
    intro c mem
    rcases List.mem_append.mp mem with front | last
    · exact ih c front
    · cases List.mem_singleton.mp last
      exact isDigit_digit (Nat.mod_lt n (by decide))

theorem number_decimal (n : Nat) : number (decimal n) = n := by
  induction n using decimal.induct with
  | case1 n lt =>
    rw [decimal, if_pos lt, number, List.foldl_cons, List.foldl_nil, digit_toNat lt]
    omega
  | case2 n ge ih =>
    rw [decimal, if_neg ge, number, List.foldl_append, ← number, ih, List.foldl_cons,
      List.foldl_nil, digit_toNat (Nat.mod_lt n (by decide))]
    omega

theorem isSpace_of_isDigit {c : UInt8} (digit : isDigit c = true) : isSpace c = false := by
  have range := of_decide_eq_true digit
  rw [UInt8.le_iff_toNat_le, UInt8.le_iff_toNat_le] at range
  refine decide_eq_false fun space => ?_
  rw [UInt8.le_iff_toNat_le, UInt8.le_iff_toNat_le] at space
  have ge : 48 ≤ c.toNat := range.1
  rcases space with rfl | ⟨-, le⟩
  · exact absurd ge (by decide)
  · have le : c.toNat ≤ 13 := le
    omega

theorem isDigit_of_ends (ends : Ends s) : ∀ c ∈ s.head?, isDigit c = false := by
  intro c mem
  by_contra digit
  cases (ends c mem).symm.trans (isSpace_of_isDigit (Bool.not_eq_false _ ▸ digit))

theorem graphic_decimal (n : Nat) : Graphic (decimal n) := fun c mem =>
  isSpace_of_isDigit (isDigit_decimal n c mem)

/-- A number is read as it was printed. -/
theorem sscanf_unsigned (n : UInt32) (ends : Ends s) :
    sscanf (.unsigned :: format) (decimal n.toNat ++ s) =
      (sscanf format s).map (.unsigned n :: ·) := by
  have digits := isDigit_decimal n.toNat
  have some_ := decimal_ne_nil n.toNat
  have starts := starts_append some_ (graphic_decimal n.toNat) s
  have value : strtoul false (decimal n.toNat) = n := by
    rw [strtoul, number_decimal, if_neg, if_neg Bool.false_ne_true, UInt32.ofNat_toNat]
    exact Nat.not_le.mpr (Nat.lt_trans n.toNat_lt (by decide))
  generalize decimal n.toNat = w at digits some_ starts value
  have whole := takeWhile_append_of_ends digits (isDigit_of_ends ends)
  have unsigned : signed (w ++ s) = (false, w ++ s) := by
    obtain ⟨c, w, rfl⟩ := List.exists_cons_of_ne_nil some_
    have apart : ∀ sign, isDigit sign = false → ¬ (c :: w ++ s).head? = some sign := by
      intro sign other same
      cases Option.some.inj same
      cases (digits c List.mem_cons_self).symm.trans other
    rw [signed, if_neg (apart 45 (by decide)), if_neg (apart 43 (by decide))]
  have read : Directive.unsigned.read (w ++ s) = some (some (.unsigned n), s) := by
    unfold Directive.read
    dsimp only
    rw [starts.dropWhile, unsigned]
    dsimp only
    rw [whole, if_neg some_, value, List.drop_left' rfl]
  rw [sscanf, read]
  rfl

/-- The last number of a line. -/
theorem sscanf_unsigned_end (n : UInt32) :
    sscanf [.unsigned] (decimal n.toNat) = some [.unsigned n] := by
  have read := @sscanf_unsigned [] [] n ends_nil
  rw [List.append_nil] at read
  exact read

/-- Numbers below `10 ^ k` have at most `k` digits. -/
theorem length_decimal_le {n k : Nat} (pos : 0 < k) (lt : n < 10 ^ k) : (decimal n).length ≤ k := by
  induction n using decimal.induct generalizing k with
  | case1 n small =>
    rw [decimal, if_pos small]
    exact pos
  | case2 n ge ih =>
    cases k with
    | zero => cases pos
    | succ k =>
      have tens : n / 10 < 10 ^ k := by
        rw [Nat.pow_succ] at lt
        exact Nat.div_lt_of_lt_mul (by omega)
      have more : 0 < k := by
        by_contra none
        rw [Nat.eq_zero_of_not_pos none, Nat.pow_zero] at tens
        omega
      rw [decimal, if_neg ge, List.length_append]
      exact Nat.succ_le_succ (ih more tens)

/-- Only zero starts with the digit zero. -/
theorem head_decimal {n : Nat} (pos : 0 < n) : (decimal n).head? ≠ some 48 := by
  induction n using decimal.induct with
  | case1 n small =>
    rw [decimal, if_pos small]
    intro same
    have value := congrArg UInt8.toNat (Option.some.inj same)
    rw [digit_toNat small] at value
    have value : 48 + n = 48 := value
    omega
  | case2 n ge ih =>
    rw [decimal, if_neg ge, List.head?_append_of_ne_nil _ (decimal_ne_nil _)]
    exact ih (by omega)

end Scanf
