import Mathlib.Data.List.TakeWhile
import Mathlib.Tactic.Common

/-!
# `EChannel.Support.CText`: text as the C library sees it

A buffer is a list of characters, one for each byte, without its terminator. A pointer into it
is what is left of the list from there on, and the text at the pointer ends at the first NUL
or at the terminator (`CString.ofBuf`).

`strtok`, `atoi` and `sscanf` follow the C standard. `sscanf` takes the format as a list of
directives and answers with the conversions it made, so their number is the return value (the
standard's `EOF` is no conversion either). The width of the destination is not its concern:
`Fits` says whether the words can be stored. `%d` and `atoi` convert as `(int) strtol` does, with
a `long` of 64 bits (`toInt`). So a number that no `int` can hold keeps its low 32 bits.
-/

set_option autoImplicit false

namespace EChannel

/-- The character that ends a C string. -/
def nul : Char := Char.ofNat 0

/-- A C string: characters other than NUL. -/
structure CString where
  chars : List Char
  noNul : nul ∉ chars
  deriving DecidableEq

namespace CString

/-- The string at a pointer. -/
def ofBuf (buf : List Char) : CString where
  chars := buf.takeWhile fun c => decide (c ≠ nul)
  noNul h := by simpa using List.mem_takeWhile_imp h

/-- `strlen`. -/
def length (s : CString) : Nat := s.chars.length

/-- C strings with the same characters are equal. -/
theorem ext_chars {s t : CString} (h : s.chars = t.chars) : s = t := by
  cases s
  cases t
  cases h
  rfl

/-- Characters without NUL are the whole string. -/
theorem ofBuf_chars_of_noNul {buf : List Char} (h : nul ∉ buf) : (ofBuf buf).chars = buf := by
  refine List.takeWhile_eq_self_iff.mpr fun c hc => ?_
  exact decide_eq_true fun heq => h (heq ▸ hc)

/-- A C string is read back from its characters. -/
@[simp] theorem ofBuf_chars (s : CString) : ofBuf s.chars = s :=
  ext_chars (ofBuf_chars_of_noNul s.noNul)

end CString

namespace CText

/-- `isspace` in the C locale. -/
def isspace (c : Char) : Bool :=
  c = ' ' ∨ c = '\t' ∨ c = '\n' ∨ c.toNat = 11 ∨ c.toNat = 12 ∨ c = '\r'

/-- The first `strtok` on a buffer: the token, and the buffer from the character that ends the
token on. That character is overwritten by NUL. -/
def strtok (delims buf : List Char) : Option (List Char × List Char) :=
  match buf.dropWhile (fun c => decide (c ∈ delims)) with
  | [] => none
  | c :: s =>
    -- The string ends at NUL, although the buffer goes on.
    if c = nul then none
    else some ((c :: s).takeWhile (fun c => decide (c ∉ delims ∧ c ≠ nul)),
      (c :: s).dropWhile (fun c => decide (c ∉ delims ∧ c ≠ nul)))

/-! ### Numbers -/

/-- The digits at the start of a text, as a number, and the rest. -/
def scanNat (s : List Char) : Option (Nat × List Char) :=
  if s.takeWhile Char.isDigit = [] then none
  else some (Nat.ofDigitChars 10 (s.takeWhile Char.isDigit) 0, s.dropWhile Char.isDigit)

/-- The result of `strtol`: the `long` nearest to a number. -/
def strtol (v : Int) : Int := max (-9223372036854775808) (min v 9223372036854775807)

/-- The conversion of a number to `int`: the low 32 bits of the `long`, with their sign. -/
def toInt (v : Int) : Int := (strtol v + 2147483648) % 4294967296 - 2147483648

/-- An `int` is converted to itself. -/
theorem toInt_of_lt {n : Nat} (hn : n < 2147483648) : toInt n = n := by
  unfold toInt strtol
  omega

/-- A decimal number with an optional sign. -/
def scanInt (s : List Char) : Option (Int × List Char) :=
  match s with
  | '-' :: s => (scanNat s).map fun r => (toInt (-r.1), r.2)
  | '+' :: s => (scanNat s).map fun r => (toInt r.1, r.2)
  | s => (scanNat s).map fun r => (toInt r.1, r.2)

/-- `atoi`. -/
def atoi (s : List Char) : Int :=
  match scanInt (s.dropWhile isspace) with
  | some (v, _) => v
  | none => 0

/-- `%u` and `%d` of a number that is not negative. -/
def printNat (n : Nat) : List Char := Nat.toDigits 10 n

/-! ### `sscanf` -/

/-- The directives of a format. -/
inductive Directive
  | str
  | int
  | ws
  | lit (c : Char)
  deriving DecidableEq, Repr

/-- A conversion that `sscanf` has made. -/
inductive Conv
  | str (w : List Char)
  | int (v : Int)
  deriving DecidableEq, Repr

/-- The directives of a format string with `%s`, `%d`, white space and other characters. -/
def directives : List Char → List Directive
  | '%' :: 's' :: fmt => .str :: directives fmt
  | '%' :: 'd' :: fmt => .int :: directives fmt
  | c :: fmt => (if isspace c then .ws else .lit c) :: directives fmt
  | [] => []

/-- `sscanf`: the conversions made before the first directive that does not match. -/
def sscanf : List Directive → List Char → List Conv
  | [], _ => []
  | .ws :: fmt, s => sscanf fmt (s.dropWhile isspace)
  | .lit c :: fmt, s =>
    match s with
    | [] => []
    | c' :: s => if c' = c then sscanf fmt s else []
  | .str :: fmt, s =>
    let s := s.dropWhile isspace
    let w := s.takeWhile fun c => !isspace c
    -- At the end of the text there is no word, which counts as a mismatch.
    if w = [] then [] else .str w :: sscanf fmt (s.dropWhile fun c => !isspace c)
  | .int :: fmt, s =>
    match scanInt (s.dropWhile isspace) with
    | some (v, s) => .int v :: sscanf fmt s
    | none => []

/-- Every word fits into its buffer, with a NUL behind it. -/
def Fits : List Nat → List Conv → Bool
  | _, [] => true
  | sizes, .int _ :: convs => Fits sizes convs
  | size :: sizes, .str w :: convs => w.length < size && Fits sizes convs
  | [], .str _ :: _ => false

/-! ### Reading back what was printed -/

/-- The text goes on with a character that `p` refuses, or it ends. -/
def Stops (p : Char → Bool) (s : List Char) : Prop := ∀ c ∈ s.head?, p c = false

/-- The empty text stops every word. -/
theorem Stops.nil (p : Char → Bool) : Stops p [] := fun _ h => by cases h

/-- A text stops a word when its first character does. -/
theorem Stops.cons {p : Char → Bool} {c : Char} (h : p c = false) (s : List Char) :
    Stops p (c :: s) := fun c' h' => by
  cases h'
  exact h

/-- The word in front of a text that stops it. -/
theorem takeWhile_append_stops {p : Char → Bool} {w s : List Char} (hw : ∀ c ∈ w, p c = true)
    (hs : Stops p s) : (w ++ s).takeWhile p = w := by
  rw [List.takeWhile_append_of_pos hw]
  cases s with
  | nil => simp
  | cons c s => simp [hs c rfl]

/-- The text behind a word that it stops. -/
theorem dropWhile_append_stops {p : Char → Bool} {w s : List Char} (hw : ∀ c ∈ w, p c = true)
    (hs : Stops p s) : (w ++ s).dropWhile p = s := by
  rw [List.dropWhile_append_of_pos hw]
  cases s with
  | nil => rfl
  | cons c s => simp [hs c rfl]

/-- Nothing is taken off a text that stops. -/
theorem dropWhile_stops {p : Char → Bool} {s : List Char} (hs : Stops p s) :
    s.dropWhile p = s :=
  dropWhile_append_stops (w := []) (by simp) hs

/-- The first token ends at the first delimiter. -/
theorem strtok_append {delims w s : List Char} (hne : w ≠ [])
    (hw : ∀ c ∈ w, c ∉ delims ∧ c ≠ nul) {d : Char} (hd : d ∈ delims) :
    strtok delims (w ++ d :: s) = some (w, d :: s) := by
  obtain ⟨c, w, rfl⟩ := List.exists_cons_of_ne_nil hne
  have hc := hw c List.mem_cons_self
  have hw' : ∀ c' ∈ c :: w, decide (c' ∉ delims ∧ c' ≠ nul) = true := fun c' hc' =>
    decide_eq_true (hw c' hc')
  have hs : Stops (fun c => decide (c ∉ delims ∧ c ≠ nul)) (d :: s) :=
    Stops.cons (by simp [hd]) s
  have hdrop : (c :: w ++ d :: s).dropWhile (fun c => decide (c ∈ delims)) =
      c :: (w ++ d :: s) := dropWhile_stops (Stops.cons (by simp [hc.1]) _)
  simp only [strtok, hdrop, if_neg hc.2]
  rw [← List.cons_append, takeWhile_append_stops hw' hs, dropWhile_append_stops hw' hs]

/-- A printed number has digits only. -/
theorem printNat_isDigit (n : Nat) : ∀ c ∈ printNat n, c.isDigit = true := fun _ hc =>
  Nat.isDigit_of_mem_toDigits (by decide) (by decide) hc

/-- A printed number has a digit. -/
theorem printNat_ne_nil (n : Nat) : printNat n ≠ [] := Nat.toDigits_ne_nil

/-- The codes of the digits. -/
theorem toNat_of_isDigit {c : Char} (h : c.isDigit = true) : 48 ≤ c.toNat ∧ c.toNat ≤ 57 := by
  simp only [Char.isDigit, Bool.and_eq_true, decide_eq_true_eq] at h
  exact ⟨UInt32.le_iff_toNat_le.mp h.1, UInt32.le_iff_toNat_le.mp h.2⟩

/-- A digit is none of the characters that end a number or a word. -/
theorem ne_of_isDigit {c d : Char} (h : c.isDigit = true) (hd : d.toNat < 48) : c ≠ d := by
  rintro rfl
  have := toNat_of_isDigit h
  omega

/-- A digit is not a blank. -/
theorem isspace_of_isDigit {c : Char} (h : c.isDigit = true) : isspace c = false := by
  have hnat := toNat_of_isDigit h
  have hne : ∀ d : Char, d.toNat < 48 → c ≠ d := fun d hd => ne_of_isDigit h hd
  have h11 : ¬ c.toNat = 11 := by omega
  have h12 : ¬ c.toNat = 12 := by omega
  simp [isspace, hne ' ' (by decide), hne '\t' (by decide), hne '\n' (by decide),
    hne '\r' (by decide), h11, h12]

/-- A word: what `%s` takes, with no NUL in it. -/
structure IsWord (w : List Char) : Prop where
  ne_nil : w ≠ []
  noSpace : ∀ c ∈ w, isspace c = false
  noNul : nul ∉ w

/-- A word, by evaluation. -/
theorem isWord_of_all {w : List Char} (hne : w ≠ [])
    (h : (w.all fun c => !isspace c && decide (c ≠ nul)) = true) : IsWord w := by
  have hall : ∀ c ∈ w, isspace c = false ∧ c ≠ nul := by
    simpa only [List.all_eq_true, Bool.and_eq_true, Bool.not_eq_true', decide_eq_true_eq] using h
  exact ⟨hne, fun c hc => (hall c hc).1, fun hc => (hall nul hc).2 rfl⟩

/-- A word is not skipped as white space. -/
theorem IsWord.stops {w : List Char} (hw : IsWord w) (s : List Char) :
    Stops isspace (w ++ s) := by
  obtain ⟨c, w', rfl⟩ := List.exists_cons_of_ne_nil hw.ne_nil
  exact Stops.cons (hw.noSpace c List.mem_cons_self) _

/-- A blank ends a word. -/
theorem stops_blank (s : List Char) : Stops (fun c => !isspace c) (' ' :: s) :=
  Stops.cons (by decide) s

/-- A printed number has no null character. -/
theorem nul_notMem_printNat (n : Nat) : nul ∉ printNat n := fun h =>
  ne_of_isDigit (printNat_isDigit n nul h) (by decide) rfl

/-- A printed number is a word. -/
theorem isWord_printNat (n : Nat) : IsWord (printNat n) where
  ne_nil := printNat_ne_nil n
  noSpace c hc := isspace_of_isDigit (printNat_isDigit n c hc)
  noNul := nul_notMem_printNat n

/-- The length of a printed number below a power of ten. -/
theorem length_printNat_lt {n k : Nat} (hn : n < Nat.pow 10 k) (hk : 0 < k) :
    (printNat n).length < k + 1 :=
  Nat.lt_succ_of_le ((Nat.length_toDigits_le_iff (by decide) hk).mpr hn)

/-- A printed number is read back. -/
theorem scanNat_printNat (n : Nat) {s : List Char} (hs : Stops Char.isDigit s) :
    scanNat (printNat n ++ s) = some (n, s) := by
  have hw := printNat_isDigit n
  simp only [scanNat, takeWhile_append_stops hw hs, dropWhile_append_stops hw hs,
    if_neg (printNat_ne_nil n)]
  simp [printNat]

/-- `%d` reads a printed number back, if it is an `int`. -/
theorem scanInt_printNat {n : Nat} (hn : n < 2147483648) {s : List Char}
    (hs : Stops Char.isDigit s) : scanInt (printNat n ++ s) = some ((n : Int), s) := by
  have hread := scanNat_printNat n hs
  obtain ⟨c, w, hcw⟩ := List.exists_cons_of_ne_nil (printNat_ne_nil n)
  have hc : c.isDigit = true := printNat_isDigit n c (hcw ▸ List.mem_cons_self)
  rw [hcw, List.cons_append] at hread ⊢
  unfold scanInt
  split
  -- A printed number starts with a digit, so the two cases with a sign do not occur.
  · rename_i heq
    exact absurd (List.cons.inj heq).1 (ne_of_isDigit hc (by decide))
  · rename_i heq
    exact absurd (List.cons.inj heq).1 (ne_of_isDigit hc (by decide))
  · simp [hread, toInt_of_lt hn]

/-- `atoi` reads a printed number back, if it is an `int`. -/
theorem atoi_printNat {n : Nat} (hn : n < 2147483648) : atoi (printNat n) = n := by
  have hread := scanInt_printNat hn (Stops.nil Char.isDigit)
  have hspace := dropWhile_stops ((isWord_printNat n).stops [])
  rw [List.append_nil] at hread hspace
  simp only [atoi, hspace, hread]

section Sscanf
variable {fmt : List Directive} {s w : List Char}

/-- The rest of a format without conversions makes none. -/
theorem sscanf_eq_nil : ∀ {fmt : List Directive} {s : List Char},
    (∀ d ∈ fmt, d ≠ .str ∧ d ≠ .int) → sscanf fmt s = [] := by
  intro fmt
  induction fmt with
  | nil => intro s _; rfl
  | cons d fmt ih =>
    intro s h
    have htail : ∀ d ∈ fmt, d ≠ .str ∧ d ≠ .int := fun d hd => h d (List.mem_cons_of_mem _ hd)
    cases d with
    | str => exact absurd rfl (h .str List.mem_cons_self).1
    | int => exact absurd rfl (h .int List.mem_cons_self).2
    | ws => exact ih htail
    | lit c =>
      unfold sscanf
      split
      · rfl
      · split
        · exact ih htail
        · rfl

/-- A blank of the format takes the blank of the text. -/
theorem sscanf_ws (hs : Stops isspace s) : sscanf (.ws :: fmt) (' ' :: s) = sscanf fmt s := by
  have hdrop : (' ' :: s).dropWhile isspace = s :=
    dropWhile_append_stops (w := [' ']) (by simp [isspace]) hs
  rw [sscanf, hdrop]

/-- A literal character of the format is matched. -/
theorem sscanf_lit (c : Char) : sscanf (.lit c :: fmt) (c :: s) = sscanf fmt s := by
  simp [sscanf]

/-- `%s` takes a word. -/
theorem sscanf_str (hw : IsWord w) (hs : Stops (fun c => !isspace c) s) :
    sscanf (.str :: fmt) (w ++ s) = .str w :: sscanf fmt s := by
  have hw' : ∀ c ∈ w, (!isspace c) = true := fun c hc => by simp [hw.noSpace c hc]
  simp only [sscanf, dropWhile_stops (hw.stops s), takeWhile_append_stops hw' hs,
    dropWhile_append_stops hw' hs, if_neg hw.ne_nil]

/-- `%s` takes the last word. -/
theorem sscanf_str_end (hw : IsWord w) : sscanf (.str :: fmt) w = .str w :: sscanf fmt [] := by
  have h : sscanf (.str :: fmt) (w ++ []) = .str w :: sscanf fmt [] :=
    sscanf_str hw (Stops.nil _)
  rwa [List.append_nil] at h

/-- `%d` takes a printed number. -/
theorem sscanf_int {n : Nat} (hn : n < 2147483648) (hs : Stops Char.isDigit s) :
    sscanf (.int :: fmt) (printNat n ++ s) = .int n :: sscanf fmt s := by
  simp only [sscanf, dropWhile_stops ((isWord_printNat n).stops s), scanInt_printNat hn hs]

/-- A word that was read is not empty. -/
theorem sscanf_word_ne_nil (fmt : List Directive) (src : List Char) :
    ∀ w, .str w ∈ sscanf fmt src → w ≠ [] := by
  fun_induction sscanf fmt src with
  | case1 src =>
    intro w hw
    cases hw
  | case2 fmt s ih => exact ih
  | case3 c fmt =>
    intro w hw
    cases hw
  | case4 fmt c s ih => exact ih
  | case5 c fmt c' s h =>
    intro w hw
    cases hw
  | case6 fmt s s' w h =>
    intro w hw
    cases hw
  | case7 fmt s s' w h ih =>
    -- `%s` stops the scan when it finds no character.
    intro w' hw'
    rcases List.mem_cons.mp hw' with heq | hrest
    · cases heq
      exact h
    · exact ih w' hrest
  | case8 fmt s v rest hscan ih =>
    intro w hw
    rcases List.mem_cons.mp hw with heq | hrest
    · cases heq
    · exact ih w hrest
  | case9 fmt s hscan =>
    intro w hw
    cases hw

end Sscanf

end CText

end EChannel
