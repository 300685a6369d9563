import EChannel.Signalling.CommandClient

/-!
# `EChannel.Proofs.Signalling.TurnEcho`: the relays of an invitation in the response

`parseRequest` writes each relay of the request as a text, with `QString::arg` for the address
and for the port, and `genReponse` splits the text at the colon again. Two things are lost on
the way. A place marker in the address is taken for one of the format, if its number is not
larger than that of the port; and `toShort` reads a port beyond 32767 as 0.

`turnText_eq` has the text of a relay and `turnRelay_turnText` the condition on one relay.
`genReponse_turnaddr_iff` is the condition on a request.
-/

set_option autoImplicit false

namespace EChannel.Signalling

namespace CommandClient

open QString

/-- The text of a relay. The port is put in for the lowest marker `m` of the address and the
format. -/
theorem turnText_eq (relay : TurnRelay) :
    ∃ m, turnText relay =
        (pieces relay.addr).flatMap (ArgPiece.replace m (CText.printNat relay.port.toNat)) ++
          ':' :: (if 2 = m then CText.printNat relay.port.toNat else ['%', '2']) ∧
      (m ∉ markers relay.addr → m = 2) ∧
      (m ∉ markers relay.addr ↔ ∀ n ∈ markers relay.addr, 2 < n) := by
  have hpieces : pieces (relay.addr ++ ':' :: ['%', '2']) =
      pieces relay.addr ++ .char ':' :: [.marker 2 ['%', '2']] :=
    pieces_append (by decide) (by decide) (by decide) _ _
  have hnum : (pieces (relay.addr ++ ':' :: ['%', '2'])).filterMap ArgPiece.number? =
      markers relay.addr ++ [2] := by
    rw [hpieces, List.filterMap_append]
    rfl
  obtain ⟨m, hmin⟩ : ∃ m, (markers relay.addr ++ [2]).min? = some m := by
    cases hm : (markers relay.addr ++ [2]).min? with
    | none => simp at hm
    | some m => exact ⟨m, rfl⟩
  obtain ⟨hmem, hle⟩ := List.min?_eq_some_iff.mp hmin
  have hm : m ≤ 2 := hle 2 (by simp)
  have htwo : m ∉ markers relay.addr → m = 2 := by
    intro hnot
    rcases List.mem_append.mp hmem with h | h
    · exact absurd h hnot
    · exact List.mem_singleton.mp h
  refine ⟨m, ?_, htwo, ?_⟩
  · show arg (arg _ _) _ = _
    rw [arg_addr, arg_eq_of_min (hnum.symm ▸ hmin), hpieces]
    simp only [List.flatMap_append, List.flatMap_cons, List.flatMap_nil, ArgPiece.replace,
      List.append_nil, List.cons_append, List.nil_append]
  · constructor
    · intro hnot n hn
      have hm₂ := htwo hnot
      have hne : n ≠ 2 := fun h => hnot (by rwa [hm₂, ← h])
      have hge := hle n (List.mem_append_left _ hn)
      omega
    · intro hall hmem'
      have hgt := hall m hmem'
      omega

/-- The port that a response has. -/
theorem ofNat_toShort_printNat {port : UInt32} (h : port.toNat ≤ 65535) :
    UInt32.ofNat (toShort (CText.printNat port.toNat) % 4294967296).toNat = port ↔
      port.toNat ≤ 32767 := by
  rw [toShort_printNat]
  split
  · rename_i hle
    have hmod : (((port.toNat : Int)) % 4294967296).toNat = port.toNat := by omega
    rw [hmod, UInt32.ofNat_toNat]
    exact iff_of_true rfl hle
  · rename_i hgt
    refine iff_of_false (fun hport => hgt ?_) hgt
    rw [← hport]
    decide

/-- A relay comes back as it was if and only if its port is at most 32767 and its address has no
place marker up to `%2`. -/
theorem turnRelay_turnText {relay : TurnRelay} (hcolon : ':' ∉ relay.addr)
    (hport : relay.port.toNat ≤ 65535) :
    turnRelay (turnText relay) = relay ↔
      relay.port.toNat ≤ 32767 ∧ ∀ n ∈ markers relay.addr, 2 < n := by
  obtain ⟨m, htext, htwo, hiff⟩ := turnText_eq relay
  have hdigit := CText.printNat_isDigit relay.port.toNat
  have hcolon' : ':' ∉ CText.printNat relay.port.toNat := fun hmem =>
    absurd (hdigit ':' hmem) (by decide)
  have hfirst : ':' ∉
      (pieces relay.addr).flatMap (ArgPiece.replace m (CText.printNat relay.port.toNat)) :=
    fun hmem => (mem_of_mem_flatMap_replace hmem).elim hcolon' hcolon
  have hsecond : ':' ∉ (if 2 = m then CText.printNat relay.port.toNat else ['%', '2']) := by
    split
    · exact hcolon'
    · decide
  have hsplit := List.splitOn_append_cons_self_of_not_mem hfirst
    (if 2 = m then CText.printNat relay.port.toNat else ['%', '2'])
  rw [← htext, List.splitOn_eq_singleton hsecond] at hsplit
  -- The printed port starts with a digit, which no marker does.
  obtain ⟨d, ds, hprint⟩ := List.exists_cons_of_ne_nil (CText.printNat_ne_nil relay.port.toNat)
  have hd : d ≠ '%' := CText.ne_of_isDigit (hdigit d (by rw [hprint]; exact List.mem_cons_self))
    (by decide)
  have haddr : (pieces relay.addr).flatMap
      (ArgPiece.replace m (CText.printNat relay.port.toNat)) = relay.addr ↔
        ∀ n ∈ markers relay.addr, 2 < n := by
    rw [hprint]
    exact (flatMap_replace_eq hd).trans hiff
  have hrelay : turnRelay (turnText relay) =
      { addr := (pieces relay.addr).flatMap
          (ArgPiece.replace m (CText.printNat relay.port.toNat))
        port := UInt32.ofNat
          (toShort (if 2 = m then CText.printNat relay.port.toNat else ['%', '2']) %
            4294967296).toNat } := by
    unfold turnRelay
    show TurnRelay.mk ((split _ _).getD 0 []) _ = _
    rw [split, hsplit]
    rfl
  have heta : turnRelay (turnText relay) = relay ↔
      (turnRelay (turnText relay)).addr = relay.addr ∧
        (turnRelay (turnText relay)).port = relay.port := by
    cases relay
    exact TurnRelay.mk.injEq .. ▸ Iff.rfl
  rw [heta, hrelay]
  show _ ∧ _ ↔ _
  rw [haddr, and_comm, and_congr_left_iff]
  intro hall
  -- Without a lower marker the port was put in for `%2`.
  rw [if_pos (htwo (hiff.mpr hall)).symm]
  exact ofNat_toShort_printNat hport

/-- The response has the relays of the request, in their order, if and only if each of them
comes back as it was. -/
theorem genReponse_turnaddr_iff (c : CommandClient) (request : InviteReq) (uuid : QString)
    (code : InviteCodeType) (sdp : QString)
    (h : ∀ relay ∈ request.turnaddr, ':' ∉ relay.addr ∧ relay.port.toNat ≤ 65535) :
    ((c.parseRequest request).genReponse uuid code sdp).request.turnaddr = request.turnaddr ↔
      ∀ relay ∈ request.turnaddr,
        relay.port.toNat ≤ 32767 ∧ ∀ n ∈ markers relay.addr, 2 < n := by
  have hmap : ((c.parseRequest request).genReponse uuid code sdp).request.turnaddr =
      request.turnaddr.map (turnRelay ∘ turnText) := List.map_map
  have hid : request.turnaddr = request.turnaddr.map id := (List.map_id _).symm
  rw [hmap]
  conv_lhs => rhs; rw [hid]
  rw [List.map_inj_left]
  refine forall_congr' fun relay => forall_congr' fun hmem => ?_
  exact turnRelay_turnText (h relay hmem).1 (h relay hmem).2

/-- A request with relays. -/
def relayRequest (turnaddr : List TurnRelay) : InviteReq :=
  { fromUser := "alice".toList, toUser := "bob".toList, suuid := "id".toList, mediaAddrs := [],
    media := mediaTypeFile, mediaInfo := [], turnaddr }

/-- Three relays with ports that fit into a `short`. The marker `%5` of an address is not one
that is replaced. -/
theorem genReponse_turnaddr_low_port :
    let relays : List TurnRelay :=
      [{ addr := "10.0.0.1".toList, port := 3478 }, { addr := "turn%5".toList, port := 0 },
        { addr := "10.0.0.2".toList, port := 32767 }]
    (((init "bob".toList 0).parseRequest (relayRequest relays)).genReponse
      "id".toList .ring []).request.turnaddr = relays :=
  (genReponse_turnaddr_iff (init "bob".toList 0) (relayRequest _) "id".toList .ring []
    (by decide)).mpr (by decide)

/-- The port 50000 comes back as 0. -/
theorem genReponse_turnaddr_high_port :
    ¬ ∀ (c : CommandClient) (request : InviteReq) (uuid : QString) (code : InviteCodeType)
      (sdp : QString),
      (∀ relay ∈ request.turnaddr, ':' ∉ relay.addr ∧ relay.port.toNat ≤ 65535) →
      ((c.parseRequest request).genReponse uuid code sdp).request.turnaddr =
        request.turnaddr := by
  intro h
  have hport := h (init "bob".toList 0)
    (relayRequest [{ addr := "10.0.0.1".toList, port := 50000 }]) "id".toList .ring [] (by decide)
  exact absurd hport (by decide)

end CommandClient

end EChannel.Signalling
