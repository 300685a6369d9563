import EChannel.Support.CText
import EChannel.Support.Qt

/-!
# `EChannel.Support.QtText`: functions of `QString`

`QString::arg` replaces the place marker with the lowest number, everywhere in the text. A
marker is a `%`, perhaps an `L`, and one or two digits. What an earlier argument brought in is
part of the text that the next one is put into. Digits are ASCII digits here.

`QString::split` keeps empty parts, as `List.splitOn` does. `QString::toShort` is 0 for a text
that is not a number, and for a number that no `short` can hold, and so is `QString::toInt` for an
`int`.
-/

set_option autoImplicit false

namespace EChannel

namespace QString

/-- A text as `arg` reads it. -/
inductive ArgPiece
  | char (c : Char)
  | marker (number : Nat) (text : List Char)
  deriving DecidableEq, Repr

/-- The value of a digit. -/
def digitValue (c : Char) : Nat := c.toNat - 48

/-- One or two digits: their number, their text, and the rest. -/
def escapeNumber : List Char → Option (Nat × List Char × List Char)
  | d :: e :: s =>
    if d.isDigit then
      if e.isDigit then some (10 * digitValue d + digitValue e, [d, e], s)
      else some (digitValue d, [d], e :: s)
    else none
  | [d] => if d.isDigit then some (digitValue d, [d], []) else none
  | [] => none

/-- What follows the `%` of a marker. -/
def escape : List Char → Option (Nat × List Char × List Char)
  | 'L' :: s => (escapeNumber s).map fun r => (r.1, 'L' :: r.2.1, r.2.2)
  | s => escapeNumber s

/-- The pieces of a text of `fuel` characters at most. -/
def argPieces : (fuel : Nat) → List Char → List ArgPiece
  | 0, _ => []
  | _ + 1, [] => []
  | fuel + 1, c :: s =>
    if c = '%' then
      match escape s with
      | some (number, text, rest) => .marker number ('%' :: text) :: argPieces fuel rest
      | none => .char c :: argPieces fuel s
    else .char c :: argPieces fuel s

/-- The number of a marker. -/
def ArgPiece.number? : ArgPiece → Option Nat
  | .char _ => none
  | .marker number _ => some number

/-- A piece with the argument put in for the marker `n`. -/
def ArgPiece.replace (n : Nat) (a : List Char) : ArgPiece → List Char
  | .char c => [c]
  | .marker number text => if number = n then a else text

/-- `QString::arg`. A text without a marker stays as it is. -/
def arg (s a : QString) : QString :=
  let pieces := argPieces s.length s
  match (pieces.filterMap ArgPiece.number?).min? with
  | some n => pieces.flatMap (ArgPiece.replace n a)
  | none => s

/-- The numbers of the place markers of a text. -/
def markers (s : QString) : List Nat := (argPieces s.length s).filterMap ArgPiece.number?

/-- `QString::split` at a character. -/
def split (s : QString) (sep : Char) : List QString := List.splitOn sep s

/-- The text without the blanks at both ends. -/
def trimmed (s : QString) : QString :=
  ((s.dropWhile CText.isspace).reverse.dropWhile CText.isspace).reverse

/-- The value of a text that is a decimal number, with an optional sign. -/
def toInteger (s : QString) : Option Int :=
  match trimmed s with
  | '-' :: t => if t.all Char.isDigit then (CText.scanNat t).map fun r => -(r.1 : Int) else none
  | '+' :: t => if t.all Char.isDigit then (CText.scanNat t).map fun r => (r.1 : Int) else none
  | t => if t.all Char.isDigit then (CText.scanNat t).map fun r => (r.1 : Int) else none

/-- `QString::toShort`. -/
def toShort (s : QString) : Int :=
  match toInteger s with
  | some v => if -32768 ≤ v ∧ v ≤ 32767 then v else 0
  | none => 0

/-- `QString::toInt`. -/
def toInt (s : QString) : Int :=
  match toInteger s with
  | some v => if -2147483648 ≤ v ∧ v ≤ 2147483647 then v else 0
  | none => 0

/-! ### Place markers -/

/-- The text of a piece. -/
def ArgPiece.text : ArgPiece → List Char
  | .char c => [c]
  | .marker _ text => text

/-- What a number takes, and the rest, are the text. -/
theorem eq_of_escapeNumber {s text rest : List Char} {number : Nat}
    (h : escapeNumber s = some (number, text, rest)) : text ++ rest = s := by
  unfold escapeNumber at h
  split at h
  · split at h
    · split at h
      · obtain ⟨-, rfl, rfl⟩ := h
        rfl
      · obtain ⟨-, rfl, rfl⟩ := h
        rfl
    · cases h
  · split at h
    · obtain ⟨-, rfl, rfl⟩ := h
      rfl
    · cases h
  · cases h

/-- The text of a marker and the rest are what followed the `%`. -/
theorem eq_of_escape {s text rest : List Char} {number : Nat}
    (h : escape s = some (number, text, rest)) : text ++ rest = s := by
  unfold escape at h
  split at h
  · obtain ⟨⟨number', text', rest'⟩, hnum, hr⟩ := Option.map_eq_some_iff.mp h
    obtain ⟨-, rfl, rfl⟩ := hr
    exact congrArg _ (eq_of_escapeNumber hnum)
  · exact eq_of_escapeNumber h

/-- A character that is no digit ends a number. -/
theorem escapeNumber_append {c : Char} (hc : c.isDigit = false) (t : List Char) :
    ∀ s : List Char, escapeNumber (s ++ c :: t) =
      (escapeNumber s).map fun r => (r.1, r.2.1, r.2.2 ++ c :: t)
  | [] => by
    cases t <;> simp [escapeNumber, hc]
  | [d] => by
    by_cases hd : d.isDigit <;> simp [escapeNumber, hc, hd]
  | d :: e :: s => by
    by_cases hd : d.isDigit <;> by_cases he : e.isDigit <;> simp [escapeNumber, hd, he]

/-- A character that is neither a digit nor an `L` ends a marker. -/
theorem escape_append {c : Char} (hc : c.isDigit = false) (hL : c ≠ 'L') (t s : List Char) :
    escape (s ++ c :: t) = (escape s).map fun r => (r.1, r.2.1, r.2.2 ++ c :: t) := by
  cases s with
  | nil =>
    have hcons : escape (c :: t) = escapeNumber (c :: t) := by
      unfold escape
      split
      · rename_i heq
        exact absurd (List.cons.inj heq).1 hL
      · rfl
    rw [List.nil_append, hcons]
    exact escapeNumber_append hc t []
  | cons d s =>
    by_cases hd : d = 'L'
    · subst hd
      show (escapeNumber (s ++ c :: t)).map _ = ((escapeNumber s).map _).map _
      rw [escapeNumber_append hc t s, Option.map_map, Option.map_map]
      rfl
    · have hcons : ∀ u, escape (d :: u) = escapeNumber (d :: u) := by
        intro u
        unfold escape
        split
        · rename_i heq
          exact absurd (List.cons.inj heq).1 hd
        · rfl
      rw [List.cons_append, hcons, hcons]
      exact escapeNumber_append hc t (d :: s)

/-- The rest behind a marker is not longer. -/
theorem length_of_escape {s text rest : List Char} {number : Nat}
    (h : escape s = some (number, text, rest)) : rest.length ≤ s.length := by
  rw [← eq_of_escape h, List.length_append]
  exact Nat.le_add_left _ _

/-- As many rounds as there are characters are enough. -/
theorem argPieces_eq_of_le : ∀ {fuel fuel' : Nat} {s : List Char}, s.length ≤ fuel →
    s.length ≤ fuel' → argPieces fuel s = argPieces fuel' s
  | 0, fuel', s, h, _ => by
    obtain rfl := List.length_eq_zero_iff.mp (Nat.le_zero.mp h)
    cases fuel' <;> rfl
  | fuel + 1, fuel', [], _, _ => by
    cases fuel' <;> rfl
  | fuel + 1, 0, c :: s, _, h' => absurd h' (Nat.not_succ_le_zero _)
  | fuel + 1, fuel' + 1, c :: s, h, h' => by
    have hs : s.length ≤ fuel := Nat.le_of_succ_le_succ h
    have hs' : s.length ≤ fuel' := Nat.le_of_succ_le_succ h'
    simp only [argPieces]
    rw [argPieces_eq_of_le hs hs']
    split
    · cases hesc : escape s with
      | none => rfl
      | some r =>
        have hlen := length_of_escape hesc
        show _ :: argPieces fuel r.2.2 = _ :: argPieces fuel' r.2.2
        rw [argPieces_eq_of_le (Nat.le_trans hlen hs) (Nat.le_trans hlen hs')]
    · rfl

/-- The pieces of a text. -/
def pieces (s : List Char) : List ArgPiece := argPieces s.length s

/-- A character that begins no marker is a piece. -/
theorem pieces_char {c : Char} {s : List Char} (h : c = '%' → escape s = none) :
    pieces (c :: s) = .char c :: pieces s := by
  show argPieces (s.length + 1) (c :: s) = _
  simp only [argPieces]
  split
  · rename_i hc
    rw [h hc]
    rfl
  · rfl

/-- A marker is a piece. -/
theorem pieces_marker {s text rest : List Char} {number : Nat}
    (h : escape s = some (number, text, rest)) :
    pieces ('%' :: s) = .marker number ('%' :: text) :: pieces rest := by
  show argPieces (s.length + 1) ('%' :: s) = _
  simp only [argPieces, h, if_true]
  rw [argPieces_eq_of_le (length_of_escape h) (Nat.le_refl _)]
  rfl

/-- A text is read one piece at a time. -/
theorem pieces_induction {motive : List Char → Prop} (nil : motive [])
    (char : ∀ c s, (c = '%' → escape s = none) → motive s → motive (c :: s))
    (marker : ∀ s number text rest, escape s = some (number, text, rest) → motive rest →
      motive ('%' :: s)) : ∀ s, motive s
  | [] => nil
  | c :: s => by
    by_cases hc : c = '%'
    · subst hc
      cases hesc : escape s with
      | none => exact char _ s (fun _ => hesc) (pieces_induction nil char marker s)
      | some r =>
        obtain ⟨number, text, rest⟩ := r
        have hlen := length_of_escape hesc
        exact marker s number text rest hesc (pieces_induction nil char marker rest)
    · exact char c s (fun h => absurd h hc) (pieces_induction nil char marker s)
termination_by s => s.length
decreasing_by
  all_goals simp only [List.length_cons]; omega

/-- The texts of the pieces are the text. -/
theorem flatMap_text_pieces (s : List Char) : (pieces s).flatMap ArgPiece.text = s := by
  induction s using pieces_induction with
  | nil => rfl
  | char c s h ih =>
    rw [pieces_char h, List.flatMap_cons, ih]
    rfl
  | marker s number text rest h ih =>
    rw [pieces_marker h, List.flatMap_cons, ih, ← eq_of_escape h]
    rfl

/-- The texts before and behind a character that belongs to no marker are read apart. -/
theorem pieces_append {c : Char} (hc : c.isDigit = false) (hL : c ≠ 'L') (hp : c ≠ '%')
    (t s : List Char) : pieces (s ++ c :: t) = pieces s ++ .char c :: pieces t := by
  induction s using pieces_induction with
  | nil => exact pieces_char fun h => absurd h hp
  | char d s h ih =>
    have hesc : d = '%' → escape (s ++ c :: t) = none := by
      intro hd
      rw [escape_append hc hL, h hd]
      rfl
    rw [List.cons_append, pieces_char hesc, pieces_char h, ih]
    rfl
  | marker s number text rest h ih =>
    have hesc : escape (s ++ c :: t) = some (number, text, rest ++ c :: t) := by
      rw [escape_append hc hL, h]
      rfl
    rw [List.cons_append, pieces_marker hesc, pieces_marker h, ih]
    rfl

/-- An argument that starts with another character than a marker does leaves a text as it is
if and only if the text has no such marker. -/
theorem flatMap_replace_eq {n : Nat} {d : Char} {a s : List Char} (hd : d ≠ '%') :
    (pieces s).flatMap (ArgPiece.replace n (d :: a)) = s ↔ n ∉ markers s := by
  have hnum : markers s = (pieces s).filterMap ArgPiece.number? := rfl
  rw [hnum]
  induction s using pieces_induction with
  | nil => simp [pieces, argPieces]
  | char c s h ih =>
    rw [pieces_char h, List.flatMap_cons]
    simpa [ArgPiece.replace, ArgPiece.number?] using ih rfl
  | marker s number text rest h ih =>
    have hs := eq_of_escape h
    rw [pieces_marker h, List.flatMap_cons]
    by_cases hn : number = n
    · subst hn
      have hne : d :: a ++ (pieces rest).flatMap (ArgPiece.replace number (d :: a)) ≠ '%' :: s :=
        fun heq => hd (List.cons.inj heq).1
      simpa [ArgPiece.replace, ArgPiece.number?] using hne
    · rw [← hs]
      have hn' : n ≠ number := fun heq => hn heq.symm
      simpa [ArgPiece.replace, ArgPiece.number?, hn, hn'] using ih rfl

/-- A character comes from the argument or from the text. -/
theorem mem_of_mem_flatMap_replace {n : Nat} {a s : List Char} {c : Char}
    (h : c ∈ (pieces s).flatMap (ArgPiece.replace n a)) : c ∈ a ∨ c ∈ s := by
  obtain ⟨piece, hpiece, hc⟩ := List.mem_flatMap.mp h
  have htext : c ∈ a ∨ c ∈ piece.text := by
    unfold ArgPiece.replace at hc
    split at hc
    · exact Or.inr hc
    · split at hc
      · exact Or.inl hc
      · exact Or.inr hc
  refine htext.imp_right fun hmem => ?_
  rw [← flatMap_text_pieces s]
  exact List.mem_flatMap.mpr ⟨piece, hpiece, hmem⟩

/-- `QString::arg` replaces the lowest marker. -/
theorem arg_eq_of_min {s a : QString} {n : Nat}
    (h : ((pieces s).filterMap ArgPiece.number?).min? = some n) :
    arg s a = (pieces s).flatMap (ArgPiece.replace n a) := by
  unfold arg
  dsimp only
  rw [show ((argPieces s.length s).filterMap ArgPiece.number?).min? = some n from h]
  rfl

/-- In an address with a port, the first argument is put in for `%1`, and the marker of the port is
behind it. -/
theorem arg_addr (addr : QString) : arg "%1:%2".toList addr = addr ++ ':' :: ['%', '2'] := by
  have hpieces : argPieces "%1:%2".toList.length "%1:%2".toList =
      [.marker 1 ['%', '1'], .char ':', .marker 2 ['%', '2']] := by decide
  have hmin : ([.marker 1 ['%', '1'], .char ':', .marker 2 ['%', '2']].filterMap
      ArgPiece.number?).min? = some 1 := by decide
  rw [arg, hpieces, hmin]
  rfl

/-- A text without a `%` has no marker. -/
theorem pieces_of_notMem {s : List Char} (h : '%' ∉ s) : pieces s = s.map ArgPiece.char := by
  induction s with
  | nil => rfl
  | cons c s ih =>
    have hc : c ≠ '%' := fun heq => h (heq ▸ List.mem_cons_self)
    rw [pieces_char fun heq => absurd heq hc, ih fun hmem => h (List.mem_cons_of_mem c hmem)]
    rfl

/-- An address without a `%` and a port. -/
theorem arg_addr_port {addr : QString} (h : '%' ∉ addr) (port : QString) :
    arg (arg "%1:%2".toList addr) port = addr ++ ':' :: port := by
  have hpieces : pieces (addr ++ ':' :: ['%', '2']) =
      addr.map ArgPiece.char ++ .char ':' :: [.marker 2 ['%', '2']] := by
    rw [pieces_append (by decide) (by decide) (by decide), pieces_of_notMem h]
    rfl
  have hnone : (addr.map ArgPiece.char).filterMap ArgPiece.number? = [] := by
    simp [ArgPiece.number?]
  have hmin : ((pieces (addr ++ ':' :: ['%', '2'])).filterMap ArgPiece.number?).min? = some 2 := by
    rw [hpieces, List.filterMap_append, hnone]
    rfl
  have hkeep : (addr.map ArgPiece.char).flatMap (ArgPiece.replace 2 port) = addr := by
    rw [List.flatMap_map]
    exact List.flatMap_singleton' addr
  rw [arg_addr, arg_eq_of_min hmin, hpieces, List.flatMap_append, hkeep]
  simp [ArgPiece.replace]

/-! ### Numbers -/

/-- A printed number has no blank to trim. -/
theorem trimmed_printNat (n : Nat) : trimmed (CText.printNat n) = CText.printNat n := by
  have hspace : ∀ s : List Char, (∀ c ∈ s, c.isDigit = true) →
      s.dropWhile CText.isspace = s := by
    intro s hs
    refine CText.dropWhile_stops fun c hc => ?_
    exact CText.isspace_of_isDigit (hs c (List.mem_of_mem_head? hc))
  have hdigit := CText.printNat_isDigit n
  rw [trimmed, hspace _ hdigit, hspace _ fun c hc => hdigit c (List.mem_reverse.mp hc),
    List.reverse_reverse]

/-- A printed number is read back. -/
theorem toInteger_printNat (n : Nat) : toInteger (CText.printNat n) = some (n : Int) := by
  have hdigit := CText.printNat_isDigit n
  have hsign : ∀ c ∈ (CText.printNat n).head?, c ≠ '-' ∧ c ≠ '+' := by
    intro c hc
    have hc' := hdigit c (List.mem_of_mem_head? hc)
    exact ⟨CText.ne_of_isDigit hc' (by decide), CText.ne_of_isDigit hc' (by decide)⟩
  have hscan : CText.scanNat (CText.printNat n) = some (n, []) := by
    have hnil := CText.scanNat_printNat n (CText.Stops.nil Char.isDigit)
    rwa [List.append_nil] at hnil
  have hall : (CText.printNat n).all Char.isDigit = true := List.all_eq_true.mpr hdigit
  unfold toInteger
  rw [trimmed_printNat]
  split
  · rename_i t heq
    exact absurd rfl (hsign '-' (by rw [heq]; rfl)).1
  · rename_i t heq
    exact absurd rfl (hsign '+' (by rw [heq]; rfl)).2
  · rw [if_pos hall, hscan]
    rfl

/-- A number that no `short` can hold is read as 0. -/
theorem toShort_printNat (n : Nat) :
    toShort (CText.printNat n) = if n ≤ 32767 then (n : Int) else 0 := by
  rw [toShort, toInteger_printNat]
  dsimp only
  split <;> split <;> first | rfl | omega

/-- A port is read as it was printed. -/
theorem toInt_printNat {n : Nat} (h : n ≤ 2147483647) : toInt (CText.printNat n) = n := by
  rw [toInt, toInteger_printNat]
  exact if_pos ⟨by omega, by omega⟩

end QString

example : QString.arg (QString.arg "%1:%2".toList "host".toList) "3478".toList =
    "host:3478".toList := by decide

example : QString.toShort "3478".toList = 3478 ∧ QString.toShort "50000".toList = 0 ∧
    QString.toShort "x".toList = 0 := by decide

end EChannel
