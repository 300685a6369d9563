import EChannel.Proofs.Signalling.Base64Decoding

/-!
# `EChannel.Proofs.Signalling.Base64Bounds`: the texts that are decoded within bounds

`decoding` trusts its text: it reads two characters of a group without a test, takes any byte for
an index into `gDecodeTable`, and writes to `bufTmp` for as long as there is text. A padding is
looked at and not passed, while the counter goes on by four, so behind a padding the pointer is
behind the counter.

`Piece` is what one round takes from the text, `Cuts` the pieces from the start of a text up to a
count. `Decodable` is the condition on the text, and `decodeLoop_inBounds_iff` follows the loop:
from any state, what is left is decoded within bounds if and only if it can be cut so.
`decodable_encoding_iff` is the condition for what `encoding` writes, and `decodable_encode_iff`
for the token of `CommandClient::encode`.
-/

set_option autoImplicit false

namespace EChannel.Signalling

namespace Base64url

/-! ### Pieces of a text -/

/-- What a round takes: a character of a line break, or the characters of a group, without the
padding. -/
inductive Piece
  | lineBreak (c : UInt8)
  | two (a b : UInt8)
  | three (a b c : UInt8)
  | four (a b c d : UInt8)
  deriving DecidableEq, Repr

namespace Piece

/-- The characters that are passed. -/
def chars : Piece → QByteArray
  | .lineBreak c => [c]
  | .two a b => [a, b]
  | .three a b c => [a, b, c]
  | .four a b c d => [a, b, c, d]

/-- What the counter goes on by. -/
def count : Piece → Nat
  | .lineBreak _ => 1
  | _ => 4

/-- The bytes that are written. -/
def bytes : Piece → Nat
  | .lineBreak _ => 0
  | .two _ _ => 1
  | .three _ _ _ => 2
  | .four _ _ _ _ => 3

/-- The piece can stand before `rest`. A group of two or three characters has a padding behind
it, which is in the text. -/
def Fits : Piece → QByteArray → Prop
  | .lineBreak c, _ => c = 13 ∨ c = 10
  | .two a _, rest => (a ≠ 13 ∧ a ≠ 10) ∧ rest.head? = some 61
  | .three a _ c, rest => (a ≠ 13 ∧ a ≠ 10) ∧ c ≠ 61 ∧ rest.head? = some 61
  | .four a _ c d, _ => (a ≠ 13 ∧ a ≠ 10) ∧ c ≠ 61 ∧ d ≠ 61

/-- The indices into `gDecodeTable`. -/
def indices : Piece → List Nat
  | .lineBreak _ => []
  | p => p.chars.map fun c => (replace c).toNat

end Piece

/-- The pieces from the start of a text, up to the one with which they count `n`. -/
inductive Cuts : Nat → QByteArray → List Piece → Prop
  | done (s : QByteArray) : Cuts 0 s []
  | piece {n : Nat} {p : Piece} {rest : QByteArray} {ps : List Piece} (hn : 0 < n)
      (hfits : p.Fits rest) (hps : Cuts (n - p.count) rest ps) : Cuts n (p.chars ++ rest) (p :: ps)

/-- The text can be cut up to its length, with characters up to `z` in the pieces, and the bytes
of the pieces have room in `bufTmp`. The counter ends as an `int`. -/
def Decodable (text : QByteArray) : Prop :=
  ∃ ps, Cuts text.length text ps ∧ (∀ p ∈ ps, ∀ c ∈ p.chars, c.toNat < 123) ∧
    (ps.map Piece.bytes).sum ≤ 128 ∧ (ps.map Piece.count).sum < 2147483648

/-- What was read lies in the text, the indices in the table, and what was written in `bufTmp`.
The counter, which never gets smaller, is an `int`. -/
structure Decoder.InBounds (st : Decoder) (text : QByteArray) : Prop where
  reads : ∀ offset ∈ st.reads, offset < text.length
  lookups : ∀ a ∈ st.lookups, a < gDecodeTable.length
  writes : ∀ k < st.outByte, k < 128
  counter : st.i < 2147483648

/-! ### How a text is cut -/

section
variable {p q : Piece} {rest rest' s : QByteArray} {ps : List Piece} {n : Nat}

/-- A text starts with one piece at most. -/
theorem Piece.Fits.unique (hp : p.Fits rest) (hq : q.Fits rest')
    (heq : p.chars ++ rest = q.chars ++ rest') : p = q ∧ rest = rest' := by
  cases p <;> cases q <;>
    simp only [Piece.Fits, Piece.chars, List.cons_append, List.nil_append, List.cons.injEq]
      at hp hq heq <;>
    grind

/-- The pieces of a text that starts with `p`. -/
theorem cuts_cons_iff (hn : 0 < n) (hp : p.Fits rest) :
    Cuts n (p.chars ++ rest) ps ↔ ∃ qs, ps = p :: qs ∧ Cuts (n - p.count) rest qs := by
  constructor
  · intro h
    generalize hs : p.chars ++ rest = s at h
    cases h with
    | done => exact absurd hn (Nat.lt_irrefl 0)
    | piece _ hfits hps =>
      obtain ⟨rfl, rfl⟩ := hp.unique hfits hs
      exact ⟨_, rfl, hps⟩
  · rintro ⟨qs, rfl, hqs⟩
    exact .piece hn hp hqs

/-- A text that is not empty starts with a piece, or with a group that it does not have the
characters of. -/
theorem exists_piece (hs : s ≠ []) :
    (∃ p rest, s = Piece.chars p ++ rest ∧ p.Fits rest) ∨
      ∃ a t, s = a :: t ∧ (a ≠ 13 ∧ a ≠ 10) ∧
        (t = [] ∨ (∃ b, t = [b]) ∨ ∃ b c, t = [b, c] ∧ c ≠ 61) := by
  obtain ⟨a, t, rfl⟩ := List.exists_cons_of_ne_nil hs
  by_cases ha : a ≠ 13 ∧ a ≠ 10
  · match t with
    | [] => exact Or.inr ⟨a, [], rfl, ha, Or.inl rfl⟩
    | [b] => exact Or.inr ⟨a, [b], rfl, ha, Or.inr (Or.inl ⟨b, rfl⟩)⟩
    | b :: c :: t =>
      by_cases hc : c = 61
      · exact Or.inl ⟨.two a b, c :: t, rfl, ha, congrArg some hc⟩
      · match t with
        | [] => exact Or.inr ⟨a, [b, c], rfl, ha, Or.inr (Or.inr ⟨b, c, rfl, hc⟩)⟩
        | d :: t =>
          by_cases hd : d = 61
          · exact Or.inl ⟨.three a b c, d :: t, rfl, ha, hc, congrArg some hd⟩
          · exact Or.inl ⟨.four a b c d, t, rfl, ha, hc, hd⟩
  · refine Or.inl ⟨.lineBreak a, t, rfl, ?_⟩
    by_cases h13 : a = 13
    · exact Or.inl h13
    · exact Or.inr (by_contra fun h10 => ha ⟨h13, h10⟩)

/-- A piece has not more characters than it counts. -/
theorem Piece.length_chars_le (p : Piece) : p.chars.length ≤ p.count := by
  cases p <;> simp [Piece.chars, Piece.count]

/-- Every piece counts. -/
theorem Piece.count_pos (p : Piece) : 0 < p.count := by
  cases p <;> simp [Piece.count]

end

/-- `replace` keeps a character in the table, or outside it. -/
theorem replace_toNat_lt (c : UInt8) : (replace c).toNat < 123 ↔ c.toNat < 123 := by
  unfold replace
  split
  · rename_i hc
    rw [hc]
    decide
  · split
    · rename_i hc
      rw [hc]
      decide
    · exact Iff.rfl

/-- The table has 123 entries. -/
theorem length_gDecodeTable : gDecodeTable.length = 123 := rfl

/-- The indices of a piece are in the table if its characters are. -/
theorem Piece.indices_lt_iff {p : Piece} {rest : QByteArray} (hp : p.Fits rest) :
    (∀ a ∈ p.indices, a < gDecodeTable.length) ↔ ∀ c ∈ p.chars, c.toNat < 123 := by
  rw [length_gDecodeTable]
  cases p with
  | lineBreak c =>
    -- A line break is not looked up, and its characters are small.
    refine iff_of_true (fun a ha => by cases ha) fun c' hc' => ?_
    cases List.mem_singleton.mp hc'
    rcases hp with rfl | rfl <;> decide
  | two a b => simp [Piece.indices, Piece.chars, replace_toNat_lt]
  | three a b c => simp [Piece.indices, Piece.chars, replace_toNat_lt]
  | four a b c d => simp [Piece.indices, Piece.chars, replace_toNat_lt]

/-! ### A round -/

section
variable {mem : SrcMem} {text pre s rest : QByteArray} {st st' st'' : Decoder} {p : Piece}
  {n m k m' k' : Nat} {offsets lookups offsets' lookups' : List Nat}

/-- Between two states, `m` characters are passed and `k` bytes are written. -/
structure Decoder.Adds (st st' : Decoder) (m k : Nat) (offsets lookups : List Nat) : Prop where
  src_eq : st'.src = st.src + m
  i_eq : st'.i = st.i
  outByte_eq : st'.outByte = st.outByte + k
  reads_eq : st'.reads = st.reads ++ offsets
  lookups_eq : st'.lookups = st.lookups ++ lookups

namespace Decoder

/-- Two parts of a round in a row. -/
theorem Adds.trans (h : st.Adds st' m k offsets lookups)
    (h' : st'.Adds st'' m' k' offsets' lookups') :
    st.Adds st'' (m + m') (k + k') (offsets ++ offsets') (lookups ++ lookups') where
  src_eq := by rw [h'.src_eq, h.src_eq, Nat.add_assoc]
  i_eq := by rw [h'.i_eq, h.i_eq]
  outByte_eq := by rw [h'.outByte_eq, h.outByte_eq, Nat.add_assoc]
  reads_eq := by rw [h'.reads_eq, h.reads_eq, List.append_assoc]
  lookups_eq := by rw [h'.lookups_eq, h.lookups_eq, List.append_assoc]

/-- Looking at a character reads it once. -/
theorem adds_peek (mem : SrcMem) (text : QByteArray) (st : Decoder) :
    st.Adds (st.peek mem text).2 0 0 [st.src] [] :=
  ⟨rfl, rfl, rfl, rfl, (List.append_nil _).symm⟩

/-- Taking a character reads it and its value once. -/
theorem adds_take (mem : SrcMem) (text : QByteArray) (st : Decoder) (shift : Nat) :
    st.Adds (st.take mem text shift) 1 0 [st.src] [(replace (mem.char text st.src)).toNat] :=
  ⟨rfl, rfl, rfl, rfl, rfl⟩

/-- Putting a byte writes it once. -/
theorem adds_put (st : Decoder) (bits : Nat) : st.Adds (st.put bits) 0 1 [] [] :=
  ⟨rfl, rfl, rfl, (List.append_nil _).symm, (List.append_nil _).symm⟩

/-- A padding in the place of the fourth character is looked at. -/
theorem adds_fourth_pad (hsrc : st.src = n) (hc : mem.char text n = 61) :
    st.Adds (st.fourth mem text) 0 0 [n] [] := by
  subst hsrc
  have hpeek : (st.peek mem text).1 = 61 := hc
  rw [fourth, if_pos hpeek]
  exact adds_peek mem text st

/-- The fourth character. -/
theorem adds_fourth {c : UInt8} (hsrc : st.src = n) (hc : mem.char text n = c) (hne : c ≠ 61) :
    st.Adds (st.fourth mem text) 1 1 [n, n] [(replace c).toNat] := by
  subst hsrc
  have hpeek : (st.peek mem text).1 ≠ 61 := fun heq => hne (hc.symm.trans heq)
  rw [fourth, if_neg hpeek, ← hc]
  exact ((adds_peek mem text st).trans (adds_take mem text _ 0)).trans (adds_put _ _)

/-- A padding in the place of the third character is looked at. -/
theorem adds_third_pad (hsrc : st.src = n) (hc : mem.char text n = 61) :
    st.Adds (st.third mem text) 0 0 [n] [] := by
  subst hsrc
  have hpeek : (st.peek mem text).1 = 61 := hc
  rw [third, if_pos hpeek]
  exact adds_peek mem text st

/-- The third character, and what is made of the fourth. -/
theorem adds_third {c : UInt8} (hsrc : st.src = n) (hc : mem.char text n = c) (hne : c ≠ 61)
    (hfourth : ∀ st' : Decoder, st'.src = n + 1 →
      st'.Adds (st'.fourth mem text) m k offsets lookups) :
    st.Adds (st.third mem text) (1 + m) (1 + k) ([n, n] ++ offsets)
      ([(replace c).toNat] ++ lookups) := by
  subst hsrc
  have hpeek : (st.peek mem text).1 ≠ 61 := fun heq => hne (hc.symm.trans heq)
  have htake := (adds_peek mem text st).trans (adds_take mem text _ 6)
  have hput := htake.trans (adds_put _ ((((st.peek mem text).2.take mem text 6).nValue &&&
    0x0000FF00) >>> 8))
  rw [third, if_neg hpeek, ← hc]
  exact hput.trans (hfourth _ hput.src_eq)

/-- A round on a group: the first two characters are taken as they are, and the third decides
what follows. -/
theorem round_group {a b : UInt8} (ha : mem.char text st.src = a)
    (hb : mem.char text (st.src + 1) = b) (hgroup : a ≠ 13 ∧ a ≠ 10)
    (hthird : ∀ st' : Decoder, st'.src = st.src + 2 →
      st'.Adds (st'.third mem text) m k offsets lookups) :
    ∃ st', st.Adds st' (2 + m) (1 + k) ([st.src, st.src, st.src + 1] ++ offsets)
        ([(replace a).toNat, (replace b).toNat] ++ lookups) ∧
      st.round mem text = { st' with i := st'.i + 4 } := by
  have hpeek := adds_peek mem text st
  have hzero : Adds (st.peek mem text).2 { (st.peek mem text).2 with nValue := 0 } 0 0 [] [] :=
    ⟨rfl, rfl, rfl, (List.append_nil _).symm, (List.append_nil _).symm⟩
  have htake := ((hpeek.trans hzero).trans (adds_take mem text _ 18)).trans
    (adds_take mem text _ 12)
  obtain ⟨st₂, hst₂⟩ : ∃ s : Decoder, s = Decoder.take mem text
    (Decoder.take mem text { (st.peek mem text).2 with nValue := 0 } 18) 12 := ⟨_, rfl⟩
  rw [← hst₂] at htake
  have hput := htake.trans (adds_put st₂ ((st₂.nValue &&& 0x00FF0000) >>> 16))
  have hbranch : (st.peek mem text).1 ≠ 13 ∧ (st.peek mem text).1 ≠ 10 := by
    rw [show (st.peek mem text).1 = a from ha]
    exact hgroup
  refine ⟨(st₂.put ((st₂.nValue &&& 0x00FF0000) >>> 16)).third mem text, ?_, ?_⟩
  · rw [← ha, ← hb]
    exact hput.trans (hthird _ hput.src_eq)
  · rw [Decoder.round, if_pos hbranch, Decoder.group, hst₂]

/-- What a round on the piece `p` does, in a text with `limit` characters. -/
structure Takes (st st' : Decoder) (p : Piece) (limit : Nat) : Prop where
  src_eq : st'.src = st.src + p.chars.length
  i_eq : st'.i = st.i + p.count
  outByte_eq : st'.outByte = st.outByte + p.bytes
  reads_eq : ∃ offsets, st'.reads = st.reads ++ offsets ∧ ∀ offset ∈ offsets, offset < limit
  lookups_eq : st'.lookups = st.lookups ++ p.indices

/-- A round on a group, whose counter goes on by four. -/
theorem Takes.of_adds {r : Decoder} {limit : Nat} (hr : r = { st' with i := st'.i + 4 })
    (h : st.Adds st' p.chars.length p.bytes offsets p.indices)
    (hcount : p.count = 4) (hoff : ∀ offset ∈ offsets, offset < limit) :
    st.Takes r p limit := by
  subst hr
  refine ⟨h.src_eq, ?_, h.outByte_eq, ⟨offsets, h.reads_eq, hoff⟩, h.lookups_eq⟩
  show st'.i + 4 = _
  rw [h.i_eq, hcount]

/-- A round on a piece of the text. -/
theorem round_takes (mem : SrcMem) (htext : text = pre ++ (p.chars ++ rest))
    (hsrc : st.src = pre.length) (hp : p.Fits rest) :
    st.Takes (st.round mem text) p text.length := by
  have hlen : text.length = st.src + (p.chars.length + rest.length) := by
    rw [htext, hsrc, List.length_append, List.length_append]
  -- The characters of the piece, and one behind the text, as the decoder sees them.
  have hchar : ∀ j, j ≤ (p.chars ++ rest).length →
      mem.char text (st.src + j) = (p.chars ++ rest).getD j 0 := by
    intro j hj
    rw [htext, hsrc]
    exact mem.char_append pre _ hj
  cases p with
  | lineBreak c =>
    have hc : (st.peek mem text).1 = c := hchar 0 (Nat.zero_le _)
    have hbreak : ¬ (c ≠ 13 ∧ c ≠ 10) := by
      rintro ⟨h13, h10⟩
      exact hp.elim h13 h10
    simp only [Piece.chars, List.length_singleton] at hlen
    rw [Decoder.round, hc, if_neg hbreak]
    refine ⟨rfl, rfl, rfl, ⟨_, rfl, ?_⟩, (List.append_nil _).symm⟩
    intro offset ho
    cases List.mem_singleton.mp ho
    omega
  | two a b =>
    obtain ⟨ha, hpad⟩ := hp
    obtain ⟨rest, rfl⟩ := List.head?_eq_some_iff.mp hpad
    simp only [Piece.chars, List.length_cons, List.length_nil] at hlen
    -- The third character is the padding, which is looked at only.
    have h₂ : mem.char text (st.src + 2) = 61 := hchar 2 (by simp [Piece.chars])
    obtain ⟨st', hadds, hround⟩ := round_group (hchar 0 (Nat.zero_le _))
      (hchar 1 (by simp [Piece.chars])) ha fun st' hst' => adds_third_pad hst' h₂
    exact .of_adds hround hadds rfl (by simp; omega)
  | three a b c =>
    obtain ⟨ha, hc, hpad⟩ := hp
    obtain ⟨rest, rfl⟩ := List.head?_eq_some_iff.mp hpad
    simp only [Piece.chars, List.length_cons, List.length_nil] at hlen
    -- The fourth character is the padding.
    have h₃ : mem.char text (st.src + 2 + 1) = 61 := hchar 3 (by simp [Piece.chars])
    obtain ⟨st', hadds, hround⟩ := round_group (hchar 0 (Nat.zero_le _))
      (hchar 1 (by simp [Piece.chars])) ha fun st' hst' =>
        adds_third hst' (hchar 2 (by simp [Piece.chars])) hc fun st'' hst'' =>
          adds_fourth_pad hst'' h₃
    exact .of_adds hround hadds rfl (by simp; omega)
  | four a b c d =>
    obtain ⟨ha, hc, hd⟩ := hp
    simp only [Piece.chars, List.length_cons, List.length_nil] at hlen
    have h₃ : mem.char text (st.src + 2 + 1) = d := hchar 3 (by simp [Piece.chars])
    obtain ⟨st', hadds, hround⟩ := round_group (hchar 0 (Nat.zero_le _))
      (hchar 1 (by simp [Piece.chars])) ha fun st' hst' =>
        adds_third hst' (hchar 2 (by simp [Piece.chars])) hc fun st'' hst'' =>
          adds_fourth hst'' h₃ hd
    exact .of_adds hround hadds rfl (by simp; omega)

/-! ### Groups that the text does not have the characters of -/

/-- Whatever the fourth character is, it is read. -/
theorem exists_adds_fourth (mem : SrcMem) (text : QByteArray) (n : Nat) :
    ∃ m k offsets lookups, ∀ st : Decoder, st.src = n →
      st.Adds (st.fourth mem text) m k (n :: offsets) lookups := by
  by_cases hc : mem.char text n = 61
  · exact ⟨_, _, _, _, fun st hst => adds_fourth_pad hst hc⟩
  · exact ⟨_, _, _, _, fun st hst => adds_fourth hst rfl hc⟩

/-- A round on a group reads its second and its third character. -/
theorem reads_round_group (h : mem.char text st.src ≠ 13 ∧ mem.char text st.src ≠ 10) :
    ∃ offsets, (st.round mem text).reads = st.reads ++ offsets ∧ st.src + 1 ∈ offsets ∧
      st.src + 2 ∈ offsets ∧ (mem.char text (st.src + 2) ≠ 61 → st.src + 3 ∈ offsets) := by
  by_cases hc : mem.char text (st.src + 2) = 61
  · obtain ⟨st', hadds, hround⟩ := round_group rfl rfl h fun st' hst' => adds_third_pad hst' hc
    rw [hround]
    exact ⟨_, hadds.reads_eq, by simp, by simp, fun hne => absurd hc hne⟩
  · obtain ⟨m, k, offsets, lookups, hfourth⟩ := exists_adds_fourth mem text (st.src + 2 + 1)
    obtain ⟨st', hadds, hround⟩ := round_group rfl rfl h fun st' hst' =>
      adds_third hst' rfl hc hfourth
    rw [hround]
    exact ⟨_, hadds.reads_eq, by simp, by simp, fun _ => by simp⟩

/-- What was read stays recorded in a round. -/
theorem reads_round (mem : SrcMem) (text : QByteArray) (st : Decoder) :
    ∃ offsets, (st.round mem text).reads = st.reads ++ offsets := by
  by_cases h : mem.char text st.src ≠ 13 ∧ mem.char text st.src ≠ 10
  · obtain ⟨offsets, hreads, -⟩ := reads_round_group h
    exact ⟨offsets, hreads⟩
  · have hpeek : ¬ ((st.peek mem text).1 ≠ 13 ∧ (st.peek mem text).1 ≠ 10) := h
    rw [Decoder.round, if_neg hpeek]
    exact ⟨_, rfl⟩

/-- A round on a group that the text ends in reads behind the text. -/
theorem round_reads_behind {a : UInt8} {t : QByteArray} (mem : SrcMem)
    (htext : text = pre ++ a :: t) (hsrc : st.src = pre.length) (ha : a ≠ 13 ∧ a ≠ 10)
    (ht : t = [] ∨ (∃ b, t = [b]) ∨ ∃ b c, t = [b, c] ∧ c ≠ 61) :
    ∃ offset ∈ (st.round mem text).reads, text.length ≤ offset := by
  have hlen : text.length = st.src + (t.length + 1) := by
    rw [htext, hsrc, List.length_append]
    rfl
  have hchar : ∀ j, j ≤ (a :: t).length → mem.char text (st.src + j) = (a :: t).getD j 0 := by
    intro j hj
    rw [htext, hsrc]
    exact mem.char_append pre _ hj
  have hfirst : mem.char text st.src ≠ 13 ∧ mem.char text st.src ≠ 10 := by
    rw [show mem.char text st.src = a from hchar 0 (Nat.zero_le _)]
    exact ha
  obtain ⟨offsets, hreads, h₁, h₂, h₃⟩ := reads_round_group hfirst
  rw [hreads]
  -- The first character that is not there is the second, the third or the fourth one.
  rcases ht with rfl | ⟨b, rfl⟩ | ⟨b, c, rfl, hc⟩
  · exact ⟨_, List.mem_append_right _ h₁, Nat.le_of_eq hlen⟩
  · exact ⟨_, List.mem_append_right _ h₂, Nat.le_of_eq hlen⟩
  · have hthird : mem.char text (st.src + 2) = c := hchar 2 (by simp)
    exact ⟨_, List.mem_append_right _ (h₃ (hthird ▸ hc)), Nat.le_of_eq hlen⟩

end Decoder

end

/-! ### The loop -/

/-- What was read stays recorded in the loop. -/
theorem reads_decodeLoop (mem : SrcMem) (text : QByteArray) (inLen : Nat) :
    ∀ (fuel : Nat) (st : Decoder), ∃ offsets,
      (decodeLoop mem text inLen fuel st).reads = st.reads ++ offsets
  | 0, st => ⟨[], (List.append_nil _).symm⟩
  | fuel + 1, st => by
    by_cases hlt : st.i < inLen
    · obtain ⟨offsets, hround⟩ := st.reads_round mem text
      obtain ⟨offsets', hloop⟩ := reads_decodeLoop mem text inLen fuel (st.round mem text)
      rw [decodeLoop_step hlt, hloop, hround, List.append_assoc]
      exact ⟨_, rfl⟩
    · rw [decodeLoop_stop (Nat.le_of_not_lt hlt)]
      exact ⟨[], (List.append_nil _).symm⟩

/-- The part of `InBounds` that is settled in each round. -/
def Decoder.Settled (st : Decoder) (text : QByteArray) : Prop :=
  (∀ offset ∈ st.reads, offset < text.length) ∧ ∀ a ∈ st.lookups, a < gDecodeTable.length

/-- The text from some place on can be cut up to the count `n`, when `outByte` bytes are written
and the counter is `i`. -/
def DecodableFrom (n : Nat) (s : QByteArray) (outByte i : Nat) : Prop :=
  ∃ ps, Cuts n s ps ∧ (∀ p ∈ ps, ∀ c ∈ Piece.chars p, c.toNat < 123) ∧
    outByte + (ps.map Piece.bytes).sum ≤ 128 ∧ i + (ps.map Piece.count).sum < 2147483648

/-- The bounds in terms of the end of the loop. -/
theorem Decoder.inBounds_iff (st : Decoder) (text : QByteArray) :
    st.InBounds text ↔ st.Settled text ∧ st.outByte ≤ 128 ∧ st.i < 2147483648 := by
  constructor
  · intro h
    refine ⟨⟨h.reads, h.lookups⟩, ?_, h.counter⟩
    by_contra hgt
    exact Nat.lt_irrefl _ (h.writes 128 (Nat.lt_of_not_le hgt))
  · rintro ⟨⟨hreads, hlookups⟩, hout, hi⟩
    exact ⟨hreads, hlookups, fun k hk => Nat.lt_of_lt_of_le hk hout, hi⟩

/-- No piece is left at the count 0. -/
theorem decodableFrom_zero (s : QByteArray) (outByte i : Nat) :
    DecodableFrom 0 s outByte i ↔ outByte ≤ 128 ∧ i < 2147483648 := by
  constructor
  · rintro ⟨ps, hcuts, -, hout, hi⟩
    omega
  · rintro ⟨hout, hi⟩
    exact ⟨[], .done s, by simp, by simpa using hout, by simpa using hi⟩

/-- One piece less. -/
theorem decodableFrom_piece {p : Piece} {rest : QByteArray} {n outByte i : Nat} (hn : 0 < n)
    (hp : p.Fits rest) :
    DecodableFrom n (p.chars ++ rest) outByte i ↔ (∀ c ∈ p.chars, c.toNat < 123) ∧
      DecodableFrom (n - p.count) rest (outByte + p.bytes) (i + p.count) := by
  constructor
  · rintro ⟨ps, hcuts, hchars, hout, hi⟩
    obtain ⟨qs, rfl, hqs⟩ := (cuts_cons_iff hn hp).mp hcuts
    simp only [List.map_cons, List.sum_cons] at hout hi
    exact ⟨hchars p List.mem_cons_self, qs, hqs,
      fun q hq => hchars q (List.mem_cons_of_mem p hq), by omega, by omega⟩
  · rintro ⟨hfirst, qs, hqs, hchars, hout, hi⟩
    refine ⟨p :: qs, .piece hn hp hqs, ?_, ?_, ?_⟩
    · intro q hq
      rcases List.mem_cons.mp hq with rfl | hq'
      · exact hfirst
      · exact hchars q hq'
    · simp only [List.map_cons, List.sum_cons]
      omega
    · simp only [List.map_cons, List.sum_cons]
      omega

/-- A text with a piece at its start is cut there. -/
theorem exists_piece_of_decodableFrom {s : QByteArray} {n outByte i : Nat} (hn : 0 < n)
    (h : DecodableFrom n s outByte i) : ∃ p rest, s = Piece.chars p ++ rest ∧ p.Fits rest := by
  obtain ⟨ps, hcuts, -⟩ := h
  cases hcuts with
  | done => exact absurd hn (Nat.lt_irrefl 0)
  | piece _ hfits _ => exact ⟨_, _, rfl, hfits⟩

/-- A group that the text does not have the characters of is no piece. -/
theorem not_decodableFrom {a : UInt8} {t : QByteArray} {n outByte i : Nat} (hn : 0 < n)
    (ha : a ≠ 13 ∧ a ≠ 10) (ht : t = [] ∨ (∃ b, t = [b]) ∨ ∃ b c, t = [b, c] ∧ c ≠ 61) :
    ¬ DecodableFrom n (a :: t) outByte i := by
  intro h
  obtain ⟨p, rest, heq, hp⟩ := exists_piece_of_decodableFrom hn h
  cases p <;>
    simp only [Piece.Fits, Piece.chars, List.cons_append, List.nil_append, List.cons.injEq]
      at hp heq <;>
    grind

/-- A round on a piece settles its characters. -/
theorem Decoder.Takes.settled_iff {st st' : Decoder} {p : Piece} {rest text : QByteArray}
    (h : st.Takes st' p text.length) (hp : p.Fits rest) :
    st'.Settled text ↔ st.Settled text ∧ ∀ c ∈ p.chars, c.toNat < 123 := by
  obtain ⟨offsets, hreads, hoff⟩ := h.reads_eq
  rw [← Piece.indices_lt_iff hp, Decoder.Settled, Decoder.Settled, hreads, h.lookups_eq]
  simp only [List.mem_append, or_imp, forall_and]
  constructor
  · rintro ⟨⟨hr, -⟩, hl, hi⟩
    exact ⟨⟨hr, hl⟩, hi⟩
  · rintro ⟨⟨hr, hl⟩, hi⟩
    exact ⟨⟨hr, hoff⟩, hl, hi⟩

/-- From any state, the loop stays within bounds if and only if the text that is left can be cut
up to the count that is left. -/
theorem decodeLoop_inBounds_iff (mem : SrcMem) (text : QByteArray) :
    ∀ (fuel : Nat) (st : Decoder) (pre s : QByteArray), text = pre ++ s →
      st.src = pre.length → st.src ≤ st.i → text.length ≤ st.i + fuel →
      ((decodeLoop mem text text.length fuel st).InBounds text ↔
        st.Settled text ∧ DecodableFrom (text.length - st.i) s st.outByte st.i) := by
  -- Induction on the fuel; `pre` is what the pointer has passed, `s` is what is left.
  intro fuel
  induction fuel with
  | zero =>
    intro st pre s htext hsrc hle hfuel
    have hstop : text.length ≤ st.i := hfuel
    rw [decodeLoop_stop hstop, Nat.sub_eq_zero_of_le hstop, decodableFrom_zero]
    exact st.inBounds_iff text
  | succ fuel ih =>
    intro st pre s htext hsrc hle hfuel
    by_cases hlt : st.i < text.length
    · rw [decodeLoop_step hlt]
      have hn : 0 < text.length - st.i := Nat.sub_pos_of_lt hlt
      by_cases hpiece : ∃ p rest, s = Piece.chars p ++ rest ∧ p.Fits rest
      · obtain ⟨p, rest, rfl, hp⟩ := hpiece
        -- The round takes the piece, and the hypothesis is about the rest.
        have htakes := st.round_takes mem htext hsrc hp
        have hpos := p.count_pos
        have hchars := p.length_chars_le
        rw [ih (st.round mem text) (pre ++ p.chars) rest (by rw [htext, List.append_assoc])
            (by rw [htakes.src_eq, hsrc, List.length_append])
            (by rw [htakes.src_eq, htakes.i_eq]; omega) (by rw [htakes.i_eq]; omega),
          htakes.settled_iff hp, htakes.i_eq, htakes.outByte_eq, decodableFrom_piece hn hp,
          ← Nat.sub_sub, and_assoc]
      · -- The pointer is not behind the counter, so there is text, but no piece of it.
        have hs : s ≠ [] := by
          rintro rfl
          rw [htext, List.append_nil] at hlt
          omega
        obtain ⟨a, t, rfl, ha, ht⟩ := (exists_piece hs).resolve_left hpiece
        -- The round reads behind the text, and no later round takes the read back.
        obtain ⟨offset, hmem, hbehind⟩ := Decoder.round_reads_behind mem htext hsrc ha ht
        obtain ⟨offsets, hreads⟩ := reads_decodeLoop mem text text.length fuel
          (st.round mem text)
        refine iff_of_false ?_ fun h => hpiece (exists_piece_of_decodableFrom hn h.2)
        intro hin
        have hlast := hin.reads offset (by rw [hreads]; exact List.mem_append_left _ hmem)
        exact absurd hlast (Nat.not_lt.mpr hbehind)
    · have hstop : text.length ≤ st.i := Nat.le_of_not_lt hlt
      rw [decodeLoop_stop hstop, Nat.sub_eq_zero_of_le hstop, decodableFrom_zero]
      exact st.inBounds_iff text

/-- A length below 2^31 is the same as an `int`, and another one is negative. -/
theorem dataByte_eq (inLen : UInt32) :
    dataByte inLen = if inLen.toNat < 2147483648 then inLen.toNat else 0 := by
  have hlt := inLen.toNat_lt
  show inLen.toBitVec.toInt.toNat = _
  rw [BitVec.toInt_eq_toNat_cond]
  show (if 2 * inLen.toNat < 2 ^ 32 then (inLen.toNat : Int)
    else (inLen.toNat : Int) - ((2 ^ 32 : Nat) : Int)).toNat = _
  split <;> split <;> omega

/-! ### Decoding -/

/-- `decoding` ends, and it stays within bounds if and only if its length is negative as an `int`
or the text can be cut. -/
theorem decoding_inBounds_iff (mem : SrcMem) (text : QByteArray) (inLen : UInt32)
    (hlen : inLen.toNat = text.length) :
    dataByte inLen ≤ (decoding mem text (dataByte inLen)).i ∧
      ((decoding mem text (dataByte inLen)).InBounds text ↔
        2147483648 ≤ text.length ∨ Decodable text) := by
  refine ⟨le_i_decodeLoop _ _ (Nat.le_add_left _ _), ?_⟩
  have hinit : Decoder.init.Settled text := ⟨fun _ h => (nomatch h), fun _ h => (nomatch h)⟩
  rw [dataByte_eq, hlen]
  by_cases hint : text.length < 2147483648
  · have hloop := decodeLoop_inBounds_iff mem text text.length Decoder.init [] text rfl rfl
      (Nat.le_refl _) (Nat.le_add_left _ _)
    have hfrom : DecodableFrom (text.length - Decoder.init.i) text Decoder.init.outByte
        Decoder.init.i ↔ Decodable text := by
      simp [DecodableFrom, Decodable, Decoder.init]
    rw [if_pos hint, decoding, hloop, hfrom]
    constructor
    · exact fun h => Or.inr h.2
    · exact fun h => ⟨hinit, h.resolve_left (Nat.not_le.mpr hint)⟩
  · rw [if_neg hint]
    refine iff_of_true ?_ (Or.inl (Nat.le_of_not_lt hint))
    exact (Decoder.inBounds_iff _ text).mpr ⟨hinit, Nat.zero_le _, Nat.succ_pos _⟩

/-- A text with its padding is decoded within bounds. -/
theorem decoding_inBounds_padded :
    (decoding ⟨fun _ => 0, fun _ => 0⟩ [89, 81, 61, 61] (dataByte 4)).InBounds [89, 81, 61, 61] :=
  (decoding_inBounds_iff ⟨fun _ => 0, fun _ => 0⟩ [89, 81, 61, 61] 4 rfl).2.mpr
    (Or.inr ⟨[.two 89 81], .piece (p := .two 89 81) (by decide) ⟨by decide, rfl⟩ (.done _),
      by simp [Piece.chars], by decide, by decide⟩)

/-- Of a text with one character, the decoder reads four. -/
theorem decoding_reads_behind :
    ¬ ∀ (mem : SrcMem) (text : QByteArray) (inLen : UInt32), inLen.toNat = text.length →
      (decoding mem text (dataByte inLen)).InBounds text := by
  intro h
  have hreads := (h ⟨fun _ => 0, fun _ => 0⟩ [65] 1 rfl).reads
  have hmem : 3 ∈ (decoding ⟨fun _ => 0, fun _ => 0⟩ [65] (dataByte 1)).reads := by decide +kernel
  exact absurd (hreads 3 hmem) (by decide)

/-! ### The encoder's texts -/

/-- A character of the encoder starts a group, is no padding, and is in the table. -/
theorem tableChar_spec (urlSafe : Bool) (bits : Nat) :
    (tableChar urlSafe bits ≠ 13 ∧ tableChar urlSafe bits ≠ 10) ∧ tableChar urlSafe bits ≠ 61 ∧
      (tableChar urlSafe bits).toNat < 123 := by
  have hall : ∀ i : Fin 64, ((mapTable urlSafe).getD i.val 0 ≠ 13 ∧
      (mapTable urlSafe).getD i.val 0 ≠ 10) ∧ (mapTable urlSafe).getD i.val 0 ≠ 61 ∧
        ((mapTable urlSafe).getD i.val 0).toNat < 123 := by
    cases urlSafe <;> decide +kernel
  have hlt : bits &&& 0x3f < 64 := by
    rw [show 0x3f = 2 ^ 6 - 1 from rfl, Nat.and_two_pow_sub_one_eq_mod]
    exact Nat.mod_lt _ (by decide)
  exact hall ⟨bits &&& 0x3f, hlt⟩

section
variable {urlSafe : Bool} {outByte i : Nat}

/-- A complete group of the encoder. -/
theorem decodableFrom_group (u v w x : Nat) (rest : QByteArray) :
    DecodableFrom (rest.length + 4) ([tableChar urlSafe u, tableChar urlSafe v,
        tableChar urlSafe w, tableChar urlSafe x] ++ rest) outByte i ↔
      DecodableFrom rest.length rest (outByte + 3) (i + 4) := by
  have hu := tableChar_spec urlSafe u
  have hv := tableChar_spec urlSafe v
  have hw := tableChar_spec urlSafe w
  have hx := tableChar_spec urlSafe x
  have hfits : (Piece.four (tableChar urlSafe u) (tableChar urlSafe v) (tableChar urlSafe w)
      (tableChar urlSafe x)).Fits rest := ⟨hu.1, hw.2.1, hx.2.1⟩
  refine (decodableFrom_piece (Nat.succ_pos _) hfits).trans (and_iff_right ?_)
  simp [Piece.chars, hu.2.2, hv.2.2, hw.2.2, hx.2.2]

/-- A character of a line break. -/
theorem decodableFrom_lineBreak {c : UInt8} (hc : c = 13 ∨ c = 10) (rest : QByteArray) :
    DecodableFrom (rest.length + 1) (c :: rest) outByte i ↔
      DecodableFrom rest.length rest outByte (i + 1) := by
  have hfits : (Piece.lineBreak c).Fits rest := hc
  refine (decodableFrom_piece (Nat.succ_pos _) hfits).trans (and_iff_right ?_)
  intro c' hc'
  cases List.mem_singleton.mp hc'
  rcases hc with rfl | rfl <;> decide

/-- The characters of the last two bytes, with a padding. -/
theorem decodableFrom_three (u v w : Nat) :
    DecodableFrom 4 [tableChar urlSafe u, tableChar urlSafe v, tableChar urlSafe w, 61] outByte i ↔
      outByte + 2 ≤ 128 ∧ i + 4 < 2147483648 := by
  have hu := tableChar_spec urlSafe u
  have hv := tableChar_spec urlSafe v
  have hw := tableChar_spec urlSafe w
  have hfits : (Piece.three (tableChar urlSafe u) (tableChar urlSafe v)
      (tableChar urlSafe w)).Fits [61] := ⟨hu.1, hw.2.1, rfl⟩
  refine (decodableFrom_piece (by decide) hfits).trans ((and_iff_right ?_).trans
    (decodableFrom_zero _ _ _))
  simp [Piece.chars, hu.2.2, hv.2.2, hw.2.2]

/-- The characters of the last byte, with two paddings. -/
theorem decodableFrom_two (u v : Nat) :
    DecodableFrom 4 [tableChar urlSafe u, tableChar urlSafe v, 61, 61] outByte i ↔
      outByte + 1 ≤ 128 ∧ i + 4 < 2147483648 := by
  have hu := tableChar_spec urlSafe u
  have hv := tableChar_spec urlSafe v
  have hfits : (Piece.two (tableChar urlSafe u) (tableChar urlSafe v)).Fits [61, 61] :=
    ⟨hu.1, rfl⟩
  refine (decodableFrom_piece (by decide) hfits).trans ((and_iff_right ?_).trans
    (decodableFrom_zero _ _ _))
  simp [Piece.chars, hu.2.2, hv.2.2]

end

/-- What the encoder writes from some group on can be cut if and only if it is padded, or needs no
padding, and its bytes have room. -/
theorem decodableFrom_encodeFrom (urlSafe : Bool) :
    ∀ (x : QByteArray) (lineLen outByte i : Nat),
      DecodableFrom (encodeFrom urlSafe lineLen x).length (encodeFrom urlSafe lineLen x) outByte i ↔
        (urlSafe = false ∨ x.length % 3 = 0) ∧ outByte + x.length ≤ 128 ∧
          i + (encodeFrom urlSafe lineLen x).length < 2147483648
  | a :: b :: c :: x, lineLen, outByte, i => by
    have ih := decodableFrom_encodeFrom urlSafe x (lineLen + 4)
    have hmod : (x.length + 1 + 1 + 1) % 3 = x.length % 3 := by omega
    rw [encodeFrom]
    -- What follows the group is a text like it, with more of the line written.
    generalize encodeFrom urlSafe (lineLen + 4) x = rest at ih ⊢
    by_cases hline : (lineLen + 4) % 76 = 0
    · -- The line break is two pieces of its own.
      rw [if_pos hline, List.append_assoc]
      refine (decodableFrom_group _ _ _ _ (10 :: 13 :: rest)).trans ?_
      refine (decodableFrom_lineBreak (Or.inr rfl) (13 :: rest)).trans ?_
      refine (decodableFrom_lineBreak (Or.inl rfl) rest).trans ?_
      rw [ih, show ascii "\n\r" = [10, 13] from rfl]
      simp only [List.length_append, List.length_cons, List.length_nil, hmod]
      refine and_congr_right fun _ => ?_
      omega
    · rw [if_neg hline, List.append_nil]
      refine (decodableFrom_group _ _ _ _ rest).trans ?_
      rw [ih]
      simp only [List.length_append, List.length_cons, List.length_nil, hmod]
      refine and_congr_right fun _ => ?_
      omega
  | [a, b], lineLen, outByte, i => by
    have hgroup := (tableChar_spec urlSafe (a.toNat >>> 2)).1
    have hthird := (tableChar_spec urlSafe ((b.toNat <<< 2) ||| (0 >>> 6))).2.1
    cases urlSafe with
    | true =>
      -- Without the padding, the third character is the last one, and no piece fits.
      exact iff_of_false (not_decodableFrom (by simp [encodeFrom]) hgroup
        (Or.inr (Or.inr ⟨_, _, rfl, hthird⟩))) (by simp)
    | false =>
      refine (decodableFrom_three _ _ _).trans ?_
      exact (and_iff_right (Or.inl rfl)).symm
  | [a], lineLen, outByte, i => by
    have hgroup := (tableChar_spec urlSafe (a.toNat >>> 2)).1
    cases urlSafe with
    | true =>
      exact iff_of_false (not_decodableFrom (by simp [encodeFrom]) hgroup
        (Or.inr (Or.inl ⟨_, rfl⟩))) (by simp)
    | false =>
      refine (decodableFrom_two _ _).trans ?_
      exact (and_iff_right (Or.inl rfl)).symm
  | [], lineLen, outByte, i => by
    rw [encodeFrom]
    refine (decodableFrom_zero _ _ _).trans ?_
    simp

/-- The text is at most six times as long as the bytes. The recursion is that of the encoder. -/
theorem length_encodeFrom_le (urlSafe : Bool) :
    ∀ (x : QByteArray) (lineLen : Nat), (encodeFrom urlSafe lineLen x).length ≤ 6 * x.length + 4
  | a :: b :: c :: x, lineLen => by
    have ih := length_encodeFrom_le urlSafe x (lineLen + 4)
    have hbreak : (if (lineLen + 4) % 76 = 0 then ascii "\n\r" else []).length ≤ 2 := by
      split <;> decide
    rw [encodeFrom]
    simp only [List.length_append, List.length_cons, List.length_nil]
    omega
  | [a, b], lineLen => by cases urlSafe <;> simp [encodeFrom, ascii]
  | [a], lineLen => by cases urlSafe <;> simp [encodeFrom, ascii]
  | [], lineLen => by simp [encodeFrom]

/-- The decoder can take what the encoder wrote with padding, and what it wrote without padding
only if there was no place for one, from bytes that have room in `bufTmp`. -/
theorem decodable_encoding_iff (x : QByteArray) (urlSafe : Bool) :
    Decodable (encoding x urlSafe) ↔ (urlSafe = false ∨ x.length % 3 = 0) ∧ x.length ≤ 128 := by
  have hlen := length_encodeFrom_le urlSafe x 0
  have hfrom := decodableFrom_encodeFrom urlSafe x 0 0 0
  simp only [DecodableFrom, Nat.zero_add] at hfrom
  refine hfrom.trans (and_congr_right fun _ => and_iff_left_of_imp fun hx => ?_)
  -- 128 bytes give a short text.
  omega

end Base64url

/-- The token has no padding, so the decoder can take it for one key length in three. -/
theorem decodable_encode_iff (src : QByteArray) :
    Base64url.Decodable (CommandClient.encode src) ↔ src.length % 3 = 0 ∧ src.length ≤ 128 := by
  have hlen : (xorPassword src).length = src.length := by
    simp only [xorPassword, List.length_map, List.length_zipIdx]
  rw [CommandClient.encode, Base64url.decodable_encoding_iff, hlen]
  simp only [Bool.true_eq_false, false_or]

end EChannel.Signalling
