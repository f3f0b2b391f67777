import MarketLens.Lib.Separated
import MarketLens.Replay.Keys

/-!
# Rows in another order

Rows of different tracks can be processed in either order: the ledgers that come out have
the same rows of every track, the same balance and the same settings, if the ids are
drawn in the order of the rows. So all that counts is the order of the rows on each track.
-/

namespace MarketLens.Replay

open List Journal Fallible Table Interleave

/-- A revealed row, with the track it is revealed on. -/
structure Shown where
  trackId : Uuid
  symbol : String
  bar : Bar

/-! ## Client ids of brackets -/

theorem toDigits_no_colon (n : Nat) : ':' ∉ Nat.toDigits 10 n := by
  intro hmem
  exact absurd (Nat.isDigit_of_mem_toDigits (by decide) (by decide) hmem) (by decide)

/-- Positions with different ids use different client ids. -/
theorem bracketClientId_id {p q : PositionRow} {bar other : Bar}
    (h : Ledger.bracketClientId p bar = Ledger.bracketClientId q other) : p.id = q.id := by
  have hchars : ∀ (r : PositionRow) (row : Bar), (Ledger.bracketClientId r row).toList =
      "bracket:".toList ++ (Nat.toDigits 10 r.id ++ ':' :: Nat.toDigits 10 row.seq) := by
    intro r row
    simp [Ledger.bracketClientId, toString]
  have hsame := congrArg String.toList h
  rw [hchars, hchars] at hsame
  have hdigits := (Separated.split_first (toDigits_no_colon _) (toDigits_no_colon _) (append_cancel_left hsame)).1
  rw [← Nat.ofDigitChars_ten_toDigits (n := p.id), hdigits, Nat.ofDigitChars_ten_toDigits]

namespace Ledger

variable {t k : Uuid} {A A' B B' L L' M : Ledger} {drafts : List EventDraft}

/-- The rows one after the other. -/
def processShown (ledger : Ledger) (shown : List Shown) : Except ReplayError (List EventDraft × Ledger) :=
  Journal.collect (fun now row => processRow row.trackId row.symbol now row.bar) ledger shown

/-! ## Ledgers with the same books -/

/-- The same rows of every track, and the same account but for its equity. -/
structure SameBooks (A B : Ledger) : Prop where
  agree : ∀ k, Agree k A B
  settings : A.account.map AccountRow.settings = B.account.map AccountRow.settings
  balance : A.balance = B.balance
  points : A.equityPoints = B.equityPoints

theorem SameBooks.refl (L : Ledger) : SameBooks L L := ⟨fun k => .refl k L, rfl, rfl, rfl⟩

theorem SameBooks.symm (h : SameBooks A B) : SameBooks B A :=
  ⟨fun k => (h.agree k).symm, h.settings.symm, h.balance.symm, h.points.symm⟩

theorem SameBooks.trans (h : SameBooks A B) (h' : SameBooks B L) : SameBooks A L :=
  ⟨fun k => (h.agree k).trans (h'.agree k), h.settings.trans h'.settings, h.balance.trans h'.balance, h.points.trans h'.points⟩

/-- What ids are drawn next is not in the books. -/
theorem sameBooks_uuids (L : Ledger) (uuids : Nat → Uuid) : SameBooks L { L with uuids := uuids } :=
  ⟨fun _ => ⟨rfl, rfl, rfl⟩, rfl, rfl, rfl⟩

theorem SameBooks.mem_orders (h : SameBooks A B) {order : OrderRow} : order ∈ A.orders ↔ order ∈ B.orders := by
  have hmem : order ∈ ofKey (·.trackId) order.trackId A.orders ↔
      order ∈ ofKey (·.trackId) order.trackId B.orders := by rw [(h.agree order.trackId).orders]
  rwa [mem_ofKey, mem_ofKey, and_iff_left rfl, and_iff_left rfl] at hmem

theorem SameBooks.alike (h : SameBooks A B) (C : String → Prop) : Alike t C A B := by
  refine ⟨h.agree t, h.settings, fun c _ => exists_congr fun order => ?_⟩
  rw [h.mem_orders]

variable {C : String → Prop}

/-- Two changes of one track that agree on it, of ledgers with the same books. -/
theorem SameBooks.after (h : SameBooks A B) (hA : Beside t C A A') (hB : Beside t C B B') (hagr : Agree t A' B')
    (hbal : B'.balance + A.balance = A'.balance + B.balance) : SameBooks A' B' := by
  refine ⟨fun k => ?_, hA.settings.trans (h.settings.trans hB.settings.symm), ?_, hA.points.trans (h.points.trans hB.points.symm)⟩
  · by_cases hk : k = t
    · rw [hk]
      exact hagr
    · exact ((hA.agree k hk).trans (h.agree k)).trans (hB.agree k hk).symm
  · rw [h.balance] at hbal
    linarith

/-! ## One row -/

theorem processShown_keyed {shown : List Shown} (hA : A.Keyed) (h : A.processShown shown = .ok (drafts, A')) : A'.Keyed :=
  collect_invariant Keyed (fun _ _ _ _ _ hnow hrnd => processRow_keyed hnow hrnd) hA h

theorem processRow_same {symbol : String} {bar : Bar} (hA : A.Keyed) (h : processRow t symbol A bar = .ok (drafts, A')) :
    ∃ ids, A.uuids = prepend ids A'.uuids ∧ ∀ B rest, B.Keyed → SameBooks A B →
      B.uuids = prepend ids rest → ∃ B', processRow t symbol B bar = .ok (drafts, B') ∧ SameBooks A' B' ∧ B'.uuids = rest := by
  have hlocal : Local t (fun _ => True) _ fun L => processRow t symbol L bar := processRow_local
  obtain ⟨ids, hids, hfoll⟩ := hlocal.follows hA (fun _ _ => trivial) h
  refine ⟨ids, hids, fun B rest hB hbooks hdra => ?_⟩
  obtain ⟨B', hmade, hagr, hrest, hbal⟩ := hfoll B rest hB (hbooks.alike _) hdra
  have hbesideA := (hlocal.kept hA (fun _ _ => trivial) h).2
  have hbesideB := (hlocal.kept hB (fun _ _ => trivial) hmade).2
  exact ⟨B', hmade, hbooks.after hbesideA hbesideB hagr hbal, hrest⟩

/-- Rows do the same on ledgers with the same books that draw the same ids. -/
theorem processShown_same {shown : List Shown} (hA : A.Keyed) (hB : B.Keyed) (hbooks : SameBooks A B)
    (huuids : B.uuids = A.uuids) (h : A.processShown shown = .ok (drafts, A')) :
    ∃ B', B.processShown shown = .ok (drafts, B') ∧ SameBooks A' B' ∧ B'.uuids = A'.uuids := by
  induction shown generalizing A B drafts with
  | nil =>
    cases h
    exact ⟨B, rfl, hbooks, huuids⟩
  | cons row shown ih =>
    obtain ⟨first, mid, more, hrnd, hmore, rfl⟩ := collect_cons_ok h
    obtain ⟨ids, hids, hfoll⟩ := processRow_same hA hrnd
    obtain ⟨midB, hroundB, hmidBooks, hmidDraws⟩ := hfoll B _ hB hbooks (huuids.trans hids)
    obtain ⟨B', hmoreB, hfinal, hdra⟩ := ih (processRow_keyed hA hrnd) (processRow_keyed hB hroundB) hmidBooks hmidDraws hmore
    exact ⟨B', collect_cons hroundB hmoreB, hfinal, hdra⟩

/-! ## Two rows -/

/-- The brackets of the open positions of a track on a row. -/
def BracketOf (L : Ledger) (t : Uuid) (bar : Bar) (clientOrderId : String) : Prop :=
  ∃ p ∈ L.openPositions t, bracketClientId p bar = clientOrderId

variable {other : Uuid}

theorem BracketOf.track {bar row : Bar} {c : String} (hL : L.Keyed)
    (h : BracketOf L t bar c) (h' : BracketOf L other row c) : t = other := by
  obtain ⟨p, hp, rfl⟩ := h
  obtain ⟨q, hq, hsame⟩ := h'
  obtain ⟨hmem, htrk, -⟩ := mem_openPositions hp
  obtain ⟨hmem', htrk', -⟩ := mem_openPositions hq
  rw [← htrk, ← htrk', inj_on_of_nodup_map hL.positions hmem hmem' (bracketClientId_id hsame).symm]

/-- A ledger and the one that another track has left look alike. -/
theorem Beside.alike {C D : String → Prop} (h : Beside other C L L') (ht : t ≠ other)
    (hapa : ∀ c, D c → ¬ C c) : Alike t D L' L := by
  refine ⟨h.agree t ht, h.settings, fun c hc => ?_⟩
  constructor
  · rintro ⟨order, hord, htrk, rfl⟩
    rcases h.clients order hord with ⟨row, hrow, hsame, hcl⟩ | ⟨-, hnew⟩
    · exact ⟨row, hrow, hsame ▸ htrk, hcl⟩
    · exact absurd hnew (hapa _ hc)
  · rintro ⟨order, hord, htrk, rfl⟩
    obtain ⟨row, hrow, -, hsame, hcl⟩ := h.keeps order hord
    exact ⟨row, hrow, hsame ▸ htrk, hcl⟩

theorem Alike.symm (h : Alike t C A B) : Alike t C B A :=
  ⟨h.agree.symm, h.settings.symm, fun c hc => (h.clients c hc).symm⟩

theorem Alike.trans (h : Alike t C A B) (h' : Alike t C B L) : Alike t C A L :=
  ⟨h.agree.trans h'.agree, h.settings.trans h'.settings, fun c hc => (h.clients c hc).trans (h'.clients c hc)⟩

theorem alike_uuids (C : String → Prop) (L : Ledger) (uuids : Nat → Uuid) : Alike t C L { L with uuids := uuids } :=
  (sameBooks_uuids L uuids).alike C

/-- **Rows of two tracks can be processed the other way round.** -/
theorem processRow_swap {symbol second : String} {bar row : Bar} {more : List EventDraft}
    (hL : L.Keyed) (ht : t ≠ other) (h : processRow t symbol L bar = .ok (drafts, A))
    (h' : processRow other second A row = .ok (more, L')) :
    ∃ uuids B M, Redraws L.uuids uuids ∧ processRow other second { L with uuids := uuids } row = .ok (more, B) ∧
      processRow t symbol B bar = .ok (drafts, M) ∧ SameBooks L' M ∧ M.uuids = L'.uuids := by
  have hfs : Local t (BracketOf L t bar) _ fun L => processRow t symbol L bar := processRow_local
  have hsec : Local other (BracketOf L other row) _ fun L => processRow other second L row :=
    processRow_local
  have hpre : ∀ {X : Ledger}, Agree t L X → ∀ p ∈ X.openPositions t, BracketOf L t bar (bracketClientId p bar) := by
    intro X hX p hp
    rw [← openPositions_agree hX] at hp
    exact ⟨p, hp, rfl⟩
  have hpre' : ∀ {X : Ledger}, Agree other L X → ∀ p ∈ X.openPositions other, BracketOf L other row (bracketClientId p row) := by
    intro X hX p hp
    rw [← openPositions_agree hX] at hp
    exact ⟨p, hp, rfl⟩
  have hapa : ∀ c, BracketOf L other row c → ¬ BracketOf L t bar c :=
    fun c hc hc' => ht (BracketOf.track hL hc' hc)
  -- the order given
  obtain ⟨hA, hbesideA⟩ := hfs.kept hL (hpre (.refl t L)) h
  have hagreeA := hbesideA.agree other ht.symm
  obtain ⟨hL', hbesideL'⟩ := hsec.kept hA (hpre' hagreeA.symm) h'
  obtain ⟨ids, hids, hfoll⟩ := hfs.follows hL (hpre (.refl t L)) h
  obtain ⟨moreIds, hmoreIds, hfoll'⟩ := hsec.follows hA (hpre' hagreeA.symm) h'
  have hred : Redraws L.uuids (prepend (moreIds ++ ids) L'.uuids) := by
    have hall : L.uuids = prepend (ids ++ moreIds) L'.uuids := by
      rw [prepend_append, ← hmoreIds]
      exact hids
    rw [hall]
    refine redraws_swap ?_
    rw [← hall]
    exact hL.injective
  -- the other one
  have hstart : Alike other (BracketOf L other row) A { L with uuids := prepend (moreIds ++ ids) L'.uuids } :=
    (hbesideA.alike ht.symm hapa).trans (alike_uuids _ L _)
  obtain ⟨B, hmadeB, hagreeB, hdrawsB, hbalanceB⟩ :=
    hfoll' _ (prepend ids L'.uuids) (hL.redraws hred) hstart (prepend_append _ _ _)
  have hpreB := hpre' (X := { L with uuids := prepend (moreIds ++ ids) L'.uuids }) ⟨rfl, rfl, rfl⟩
  obtain ⟨hB, hbesideB⟩ := hsec.kept (hL.redraws hred) hpreB hmadeB
  have hmid : Alike t (BracketOf L t bar) L B :=
    (alike_uuids _ L _).trans (hbesideB.alike ht fun c hc hc' => hapa c hc' hc).symm
  obtain ⟨M, hmadeM, hagreeM, hdrawsM, hbalanceM⟩ := hfoll B L'.uuids hB hmid hdrawsB
  obtain ⟨-, hbesideM⟩ := hfs.kept hB (hpre hmid.agree) hmadeM
  refine ⟨_, B, M, hred, hmadeB, hmadeM, ⟨fun k => ?_, ?_, ?_, ?_⟩, hdrawsM⟩
  · by_cases hkt : k = t
    · rw [hkt]
      exact (hbesideL'.agree t ht).trans hagreeM
    · by_cases hko : k = other
      · rw [hko]
        exact hagreeB.trans (hbesideM.agree other ht.symm).symm
      · have hnone : Agree k L' L := (hbesideL'.agree k hko).trans (hbesideA.agree k hkt)
        have hnone' : Agree k M { L with uuids := prepend (moreIds ++ ids) L'.uuids } :=
          (hbesideM.agree k hkt).trans (hbesideB.agree k hko)
        exact hnone.trans ⟨hnone'.orders.symm, hnone'.fills.symm, hnone'.positions.symm⟩
  · have hleft := hbesideL'.settings.trans hbesideA.settings
    have hright := hbesideM.settings.trans hbesideB.settings
    exact hleft.trans hright.symm
  · have hsame : ({ L with uuids := prepend (moreIds ++ ids) L'.uuids } : Ledger).balance = L.balance := rfl
    linarith
  · exact (hbesideL'.points.trans hbesideA.points).trans (hbesideM.points.trans hbesideB.points).symm

/-! ## Many rows -/

/-- **Rows in any order that is the same on every track.** -/
theorem processShown_swapped {shown other : List Shown} (hswapped : Swapped (·.trackId) shown other)
    (hL : L.Keyed) (h : L.processShown shown = .ok (drafts, L')) :
    ∃ uuids more M, Redraws L.uuids uuids ∧ ({ L with uuids := uuids } : Ledger).processShown other = .ok (more, M) ∧
      SameBooks L' M ∧ M.uuids = L'.uuids := by
  induction hswapped generalizing L drafts L' with
  | nil => exact ⟨L.uuids, drafts, L', ⟨hL.injective, fun _ => Iff.rfl⟩, h, .refl _, rfl⟩
  | cons row _ ih =>
    obtain ⟨first, mid, more, hrnd, hmore, rfl⟩ := collect_cons_ok h
    have hmid := processRow_keyed hL hrnd
    obtain ⟨uuids, entries, M, hred, hoth, hbooks, hdra⟩ := ih hmid hmore
    obtain ⟨ids, hids, hfoll⟩ := processRow_same hL hrnd
    have hinjective := hL.injective
    rw [hids] at hinjective
    have hall : Redraws L.uuids (prepend ids uuids) := by
      rw [hids]
      exact hred.prepend hinjective
    obtain ⟨midB, hroundB, hmidBooks, hmidDraws⟩ :=
      hfoll { L with uuids := prepend ids uuids } uuids (hL.redraws hall) (sameBooks_uuids L _) rfl
    obtain ⟨final, hotherB, hfinal, hfinDr⟩ := processShown_same (hmid.redraws hred)
      (processRow_keyed (hL.redraws hall) hroundB) ((sameBooks_uuids mid uuids).symm.trans hmidBooks)
      hmidDraws hoth
    exact ⟨prepend ids uuids, first ++ entries, final, hall, collect_cons hroundB hotherB, hbooks.trans hfinal, hfinDr.trans hdra⟩
  | swap steps hkeys =>
    obtain ⟨first, mid, more, hrnd, hmore, rfl⟩ := collect_cons_ok h
    obtain ⟨second, last, rest, hrnd', hrest, rfl⟩ := collect_cons_ok hmore
    obtain ⟨uuids, B, M, hred, hmadeB, hmadeM, hbooks, hdra⟩ :=
      processRow_swap hL hkeys hrnd hrnd'
    have hlast := processRow_keyed (processRow_keyed hL hrnd) hrnd'
    have hM := processRow_keyed (processRow_keyed (hL.redraws hred) hmadeB) hmadeM
    obtain ⟨final, hsteps, hfinal, hfinDr⟩ := processShown_same hlast hM hbooks hdra hrest
    exact ⟨uuids, second ++ (first ++ rest), final, hred, collect_cons hmadeB (collect_cons hmadeM hsteps), hfinal, hfinDr⟩
  | trans _ _ ih ih' =>
    obtain ⟨uuids, entries, M, hred, hmid, hbooks, hdra⟩ := ih hL h
    obtain ⟨uuids', entries', N, hred', hfinal, hbooks', hdra'⟩ := ih' (hL.redraws hred) hmid
    exact ⟨uuids', entries', N, hred.trans hred', hfinal, hbooks.trans hbooks', hdra'.trans hdra⟩

end Ledger

end MarketLens.Replay
