import MarketLens.Replay.Share

/-!
# A revealed row reads its own track

Every operation on the rows of a track does the same on two ledgers that agree on
the track, as long as it draws the same ids: it succeeds on both, drafts the same,
leaves the same rows of the track, and moves the balance by the same amount.
-/

namespace MarketLens.Replay

open List Option Bool Journal Fallible Table Interleave

namespace Ledger

variable {t : Uuid} {C : String → Prop} {A A' B B' L L' : Ledger} {drafts : List EventDraft}
  {rest : Nat → Uuid}

/-! ## Ledgers that agree on a track -/

/-- An operation on the track that uses client ids in `C` cannot tell the ledgers apart. -/
structure Alike (t : Uuid) (C : String → Prop) (A B : Ledger) : Prop where
  agree : Agree t A B
  settings : A.account.map AccountRow.settings = B.account.map AccountRow.settings
  clients : ∀ c, C c → ((∃ order ∈ A.orders, order.trackId ≠ t ∧ order.clientOrderId = c) ↔
    ∃ order ∈ B.orders, order.trackId ≠ t ∧ order.clientOrderId = c)

variable {order : OrderRow}

theorem Beside.mem_other (h : Beside t C L L') (hoth : order.trackId ≠ t) : order ∈ L'.orders ↔ order ∈ L.orders := by
  have hords := (h.agree order.trackId hoth).orders
  have hmem : order ∈ ofKey (·.trackId) order.trackId L'.orders ↔
      order ∈ ofKey (·.trackId) order.trackId L.orders := by rw [hords]
  rwa [mem_ofKey, mem_ofKey, and_iff_left rfl, and_iff_left rfl] at hmem

theorem Alike.after (h : Alike t C A B) (hA : Beside t C A A') (hB : Beside t C B B')
    (hagr : Agree t A' B') : Alike t C A' B' := by
  refine ⟨hagr, hA.settings.trans (h.settings.trans hB.settings.symm), fun c hc => ?_⟩
  have hkept :
      ∀ {X X' : Ledger}, Beside t C X X' → ((∃ order ∈ X'.orders, order.trackId ≠ t ∧ order.clientOrderId = c) ↔
        ∃ order ∈ X.orders, order.trackId ≠ t ∧ order.clientOrderId = c) := by
    intro X X' hX
    refine exists_congr fun order => ?_
    constructor
    · exact fun ⟨hord, hoth, hcl⟩ => ⟨(hX.mem_other hoth).mp hord, hoth, hcl⟩
    · exact fun ⟨hord, hoth, hcl⟩ => ⟨(hX.mem_other hoth).mpr hord, hoth, hcl⟩
  rw [hkept hA, hkept hB]
  exact h.clients c hc

variable {id : Uuid}

theorem Agree.hasOrder (h : Agree t A B) (hhas : HasOrder t id A) : HasOrder t id B := by
  obtain ⟨order, hord, hid, htrk⟩ := hhas
  have hmem : order ∈ ofKey (·.trackId) t A.orders := mem_ofKey.mpr ⟨hord, htrk⟩
  rw [h.orders] at hmem
  exact ⟨order, (mem_ofKey.mp hmem).1, hid, htrk⟩

/-- A client id of `C` is taken in both ledgers or in neither. -/
theorem Alike.taken (h : Alike t C A B) {c : String} (hc : C c) :
    (A.orders.any fun row => row.clientOrderId = c) = B.orders.any fun row => row.clientOrderId = c := by
  have hspl : ∀ X : Ledger, (X.orders.any fun row => row.clientOrderId = c) = true ↔
      (∃ order ∈ ofKey (·.trackId) t X.orders, order.clientOrderId = c) ∨
        ∃ order ∈ X.orders, order.trackId ≠ t ∧ order.clientOrderId = c := by
    intro X
    rw [List.any_eq_true]
    constructor
    · rintro ⟨order, hord, hsame⟩
      by_cases htrk : order.trackId = t
      · exact .inl ⟨order, mem_ofKey.mpr ⟨hord, htrk⟩, of_decide_eq_true hsame⟩
      · exact .inr ⟨order, hord, htrk, of_decide_eq_true hsame⟩
    · rintro (⟨order, hord, hsame⟩ | ⟨order, hord, -, hsame⟩)
      · exact ⟨order, (mem_ofKey.mp hord).1, decide_eq_true hsame⟩
      · exact ⟨order, hord, decide_eq_true hsame⟩
  rw [Bool.eq_iff_iff, hspl A, hspl B, h.agree.orders, h.clients c hc]

/-! ## The balance -/

/-- The balance of the account, if there is one. -/
def balance (L : Ledger) : Decimal := (L.account.map (·.balance)).getD 0

theorem refreshEquity_balance (L : Ledger) : L.refreshEquity.balance = L.balance := by
  unfold balance refreshEquity
  cases L.account <;> rfl

variable {amount : Decimal}

theorem book_balance (h : L.account.isSome = true) : (L.book amount).balance = L.balance + amount := by
  obtain ⟨account, hacct⟩ := isSome_iff_exists.mp h
  unfold balance book
  rw [hacct]
  rfl

theorem commission_some {qty : Int} {value : Decimal} (h : L.commission qty = .ok value) : L.account.isSome = true := by
  unfold commission at h
  obtain ⟨account, hacct, -⟩ := bind_ok.mp h
  rw [require_ok] at hacct
  rw [hacct]
  rfl

theorem commission_settings (h : A.account.map AccountRow.settings = B.account.map AccountRow.settings)
    (qty : Int) : A.commission qty = B.commission qty := by
  unfold commission
  cases hA : A.account with
  | none =>
    rw [hA, map_none, eq_comm, map_eq_none_iff] at h
    rw [h]
  | some account =>
    rw [hA, map_some, eq_comm, map_eq_some_iff] at h
    obtain ⟨other, hB, hsame⟩ := h
    have hsett := congrArg AccountRow.commissionModel hsame
    have hmodel : other.commissionModel = account.commissionModel := hsett
    rw [hB]
    simp only [require, bind, Except.bind, hmodel]

/-! ## Inserts and fills -/

theorem uuids_prepend (L : Ledger) : L.uuids = prepend [L.nextId] L.drawn := by
  funext n
  cases n <;> rfl

theorem drawn_prepend {ids : List Uuid} (h : L.uuids = prepend (id :: ids) rest) :
    L.nextId = id ∧ L.drawn = prepend ids rest := by
  constructor
  · rw [nextId, h]
    rfl
  · funext n
    rw [drawn, h]
    rfl

theorem insertOrder_new (hcl : (L.orders.any fun row => row.clientOrderId = order.clientOrderId) = false)
    (hkyd : L.Keyed) (hpos : 0 < order.quantity) :
    L.insertOrder order = .ok (L.nextId, { L with
      orders := L.orders ++ [{ order with id := L.nextId }], uuids := L.drawn }) := by
  have hid : (L.orders.any fun row => row.id = L.nextId) = false := by
    refine any_eq_false.mpr fun row hrow hsame => ?_
    exact hkyd.newOrder row hrow 0 (of_decide_eq_true hsame).symm
  have hqnt : decide (order.quantity ≤ 0) = false := decide_eq_false (by omega)
  unfold insertOrder
  rw [hcl, hid, hqnt]
  rfl

theorem insertOrder_follows (h : A.insertOrder order = .ok (id, A'))
    (hkyd : B.Keyed) (halike : Alike t C A B) (hcl : C order.clientOrderId)
    (hdra : B.uuids = prepend [id] rest) :
    ∃ B', B.insertOrder order = .ok (id, B') ∧ Agree t A' B' ∧ B'.uuids = rest ∧ B'.account = B.account := by
  have hins := insertOrder_ok h
  obtain ⟨hnext, hdrawn⟩ := drawn_prepend hdra
  have hnew : (B.orders.any fun row => row.clientOrderId = order.clientOrderId) = false := by
    rw [← halike.taken hcl]
    exact any_eq_false.mpr fun row hrow hsame =>
      hins.newClient row hrow (of_decide_eq_true hsame)
  have hmade := insertOrder_new hnew hkyd hins.positive
  rw [hnext] at hmade
  refine ⟨_, hmade, ?_, hdrawn, rfl⟩
  rw [hins.rows]
  refine ⟨?_, halike.agree.fills, halike.agree.positions⟩
  rw [ofKey_append, ofKey_append, halike.agree.orders]

variable {symbol : String} {p : PositionRow}

theorem positionFor_follows (h : A.positionFor t symbol = .ok (p, A')) :
    ∃ ids, A.uuids = prepend ids A'.uuids ∧ ∀ B rest, B.Keyed → Agree t A B →
      B.uuids = prepend ids rest → ∃ B', B.positionFor t symbol = .ok (p, B') ∧ Agree t A' B' ∧
        B'.uuids = rest ∧ A'.account = A.account ∧ B'.account = B.account := by
  have hfind : ∀ X : Ledger, (X.positions.find? fun q => q.trackId = t && q.symbol = symbol)
      = (ofKey (·.trackId) t X.positions).find? fun q => q.trackId = t && q.symbol = symbol := by
    refine fun X => find?_ofKey (fun q hq => ?_) _
    rw [and_eq_true, decide_eq_true_iff] at hq
    exact hq.1
  unfold positionFor at h
  split at h
  · rename_i found hfnd
    cases h
    refine ⟨[], rfl, fun B rest _ hagr hdra => ⟨B, ?_, hagr, hdra, rfl, rfl⟩⟩
    rw [hfind A, hagr.positions, ← hfind B] at hfnd
    unfold positionFor
    rw [hfnd]
  · rename_i hnone
    rw [unit_bind_ok, refuseIf_ok] at h
    obtain ⟨-, h⟩ := h
    cases h
    refine ⟨[A.nextId], uuids_prepend A, fun B rest hkyd hagr hdra => ?_⟩
    obtain ⟨hnext, hdrawn⟩ := drawn_prepend hdra
    have hid : (B.positions.any fun q => q.id = B.nextId) = false := by
      refine any_eq_false.mpr fun q hq hsame => ?_
      exact hkyd.newPosition q hq 0 (of_decide_eq_true hsame).symm
    rw [hfind A, hagr.positions, ← hfind B] at hnone
    refine ⟨{ B with
      positions := B.positions ++ [emptyPosition B.nextId t symbol], uuids := B.drawn }, ?_,
      ⟨hagr.orders, hagr.fills, ?_⟩, hdrawn, rfl, rfl⟩
    · unfold positionFor
      rw [hnone, ← hnext]
      rw [hid]
      rfl
    · rw [ofKey_append, ofKey_append, hagr.positions, hnext]

/-- The rest of a fill, once its position is found. -/
def settle (base : Ledger) (p position : PositionRow) (amount : Decimal) : Ledger :=
  (Ledger.book { base with
    positions := updateWhere (fun row => row.id = p.id) (fun _ => position) base.positions }
      amount).refreshEquity

variable {fill : FillRequest}

/-- A fill in its parts: it is found to be made already, or it is recorded, applied and settled. -/
theorem fillOrder_parts (h : A.fillOrder fill = .ok (drafts, A')) :
    0 < fill.qty ∧ 0 < fill.price ∧ ∃ commission, A.commission fill.qty = .ok commission ∧
      (((A.fills.any fun row => row.orderId = fill.orderId && row.datasetSeq = fill.seq) = true ∧ drafts = [] ∧ A' = A) ∨
      ((A.fills.any fun row => row.orderId = fill.orderId && row.datasetSeq = fill.seq) = false ∧
        ∃ row p base, row = (⟨A.nextId, fill.orderId, fill.trackId, fill.seq, fill.at, fill.price,
            fill.qty, commission⟩ : FillRow) ∧
          (A.recordFill row).positionFor fill.trackId fill.symbol = .ok (p, base) ∧
          drafts = [.orderFilled fill.orderId fill.price fill.qty, .fillCreated row,
            .positionUpdated (p.filled fill.side fill.qty fill.price fill.sl fill.tp).1,
            .accountUpdated (p.filled fill.side fill.qty fill.price fill.sl fill.tp).2] ∧
          A' = base.settle p (p.filled fill.side fill.qty fill.price fill.sl fill.tp).1
            ((p.filled fill.side fill.qty fill.price fill.sl fill.tp).2 - commission))) := by
  unfold fillOrder at h
  rw [unit_bind_ok, refuseIf_ok, or_eq_false_iff, bind_ok] at h
  obtain ⟨⟨hqty, hprc⟩, commission, hcommi, h⟩ := h
  refine ⟨Int.not_le.mp (of_decide_eq_false hqty), not_le.mp (of_decide_eq_false hprc), commission, hcommi, ?_⟩
  split at h
  · rename_i htak
    cases h
    exact .inl ⟨htak, rfl, rfl⟩
  · rename_i hfs
    rw [unit_bind_ok, bind_ok] at h
    obtain ⟨-, ⟨⟨position, realized⟩, moved⟩, happly, h⟩ := h
    cases h
    unfold applyPositionFill at happly
    obtain ⟨⟨p, base⟩, hposn, happly⟩ := bind_ok.mp happly
    cases happly
    exact .inr ⟨eq_false_of_not_eq_true hfs, _, p, base, rfl, hposn, rfl, rfl⟩

/-- The parts put together. -/
theorem fillOrder_made {commission : Decimal} {base : Ledger}
    (hqty : 0 < fill.qty) (hprc : 0 < fill.price) (hcommi : L.commission fill.qty = .ok commission)
    (hfs : (L.fills.any fun row => row.orderId = fill.orderId && row.datasetSeq = fill.seq) = false)
    (hkyd : L.Keyed)
    (hposn : (L.recordFill ⟨L.nextId, fill.orderId, fill.trackId, fill.seq, fill.at, fill.price,
      fill.qty, commission⟩).positionFor fill.trackId fill.symbol = .ok (p, base)) :
    L.fillOrder fill = .ok ([.orderFilled fill.orderId fill.price fill.qty,
      .fillCreated ⟨L.nextId, fill.orderId, fill.trackId, fill.seq, fill.at, fill.price, fill.qty, commission⟩,
      .positionUpdated (p.filled fill.side fill.qty fill.price fill.sl fill.tp).1,
      .accountUpdated (p.filled fill.side fill.qty fill.price fill.sl fill.tp).2],
      base.settle p (p.filled fill.side fill.qty fill.price fill.sl fill.tp).1
        ((p.filled fill.side fill.qty fill.price fill.sl fill.tp).2 - commission)) := by
  have hid : (L.fills.any fun row => row.id = L.nextId) = false := by
    refine any_eq_false.mpr fun row hrow hsame => ?_
    exact hkyd.newFill row hrow 0 (of_decide_eq_true hsame).symm
  have hgood : (decide (fill.qty ≤ 0) || decide (fill.price ≤ 0)) = false := by
    rw [decide_eq_false (by omega), decide_eq_false (not_le.mpr hprc)]
    rfl
  unfold fillOrder applyPositionFill
  rw [hgood, hcommi]
  simp only [refuseIf, bind, Except.bind, hfs, hid, false_eq_true, if_false]
  rw [hposn]
  rfl

theorem recordFill_agree {row : FillRow} (h : Agree t A B) : Agree t (A.recordFill row) (B.recordFill row) := by
  refine ⟨?_, ?_, h.positions⟩
  · have hkept : ∀ X : Ledger, ofKey (·.trackId) t (X.recordFill row).orders =
        updateWhere (fun order => order.id = row.orderId) filledOrder (ofKey (·.trackId) t X.orders) :=
      fun X => ofKey_updateWhere (f := filledOrder) fun _ _ _ => rfl
    rw [hkept, hkept, h.orders]
  · have happe : ∀ X : Ledger, ofKey (·.trackId) t (X.recordFill row).fills =
        ofKey (·.trackId) t X.fills ++ ofKey (·.trackId) t [row] := fun X => ofKey_append _ _ _
    rw [happe, happe, h.fills]

theorem settle_agree {p position : PositionRow} (h : Agree t A B) (hA : A.Keyed)
    (hB : B.Keyed) (hmemA : p ∈ A.positions) (hmemB : p ∈ B.positions)
    (htrk : position.trackId = p.trackId) :
    Agree t (A.settle p position amount) (B.settle p position amount) := by
  have hkept :
      ∀ X : Ledger, X.Keyed → p ∈ X.positions → ofKey (·.trackId) t (X.settle p position amount).positions =
        updateWhere (fun row => row.id = p.id) (fun _ => position) (ofKey (·.trackId) t X.positions) := by
    intro X hX hmem
    refine ofKey_updateWhere fun row hrow hsame => ?_
    rw [inj_on_of_nodup_map hX.positions hrow hmem (of_decide_eq_true hsame)]
    exact htrk
  exact ⟨h.orders, h.fills, by rw [hkept A hA hmemA, hkept B hB hmemB, h.positions]⟩

theorem settle_balance {p position : PositionRow} (h : L.account.isSome = true) :
    (L.settle p position amount).balance = L.balance + amount := by
  rw [settle, refreshEquity_balance]
  exact book_balance h

/-- **A fill does the same on ledgers that agree on its track.** -/
theorem fillOrder_follows (h : A.fillOrder fill = .ok (drafts, A')) (hA : A.Keyed) (hhas : HasOrder fill.trackId fill.orderId A) :
    ∃ ids, A.uuids = prepend ids A'.uuids ∧ ∀ B rest, B.Keyed → Alike fill.trackId C A B →
      B.uuids = prepend ids rest → ∃ B', B.fillOrder fill = .ok (drafts, B') ∧
        Agree fill.trackId A' B' ∧ B'.uuids = rest ∧ B'.balance + A.balance = A'.balance + B.balance := by
  obtain ⟨hqty, hprc, commission, hcommi, hparts⟩ := fillOrder_parts h
  have htak : ∀ X : Ledger, X.Keyed → HasOrder fill.trackId fill.orderId X →
      (X.fills.any fun row => row.orderId = fill.orderId && row.datasetSeq = fill.seq) =
        (ofKey (·.trackId) fill.trackId X.fills).any fun row =>
          row.orderId = fill.orderId && row.datasetSeq = fill.seq := by
    intro X hX hhasX
    refine any_ofKey fun row hrow hsame => ?_
    rw [and_eq_true, decide_eq_true_iff] at hsame
    exact HasOrder.fill (hsame.1 ▸ hhasX) hX hrow
  rcases hparts with ⟨htake, rfl, rfl⟩ | ⟨hfs, row, p, base, rfl, hposn, rfl, rfl⟩
  -- the row has filled the order already: nothing changes
  · refine ⟨[], rfl, fun B rest hB halike hdra => ⟨B, ?_, halike.agree, hdra, ?_⟩⟩
    · rw [htak A' hA hhas, halike.agree.fills, ← htak B hB (halike.agree.hasOrder hhas)] at htake
      have hgood : (decide (fill.qty ≤ 0) || decide (fill.price ≤ 0)) = false := by
        rw [decide_eq_false (by omega), decide_eq_false (not_le.mpr hprc)]
        rfl
      rw [commission_settings halike.settings] at hcommi
      unfold fillOrder
      rw [hgood, hcommi]
      simp only [refuseIf, bind, Except.bind, htake, false_eq_true, if_false, if_true]
      rfl
    · exact add_comm _ _
  -- a new fill: the ledgers draw the same ids for it
  · obtain ⟨more, hmore, hfoll⟩ := positionFor_follows hposn
    refine ⟨A.nextId :: more, ?_, fun B rest hB halike hdra => ?_⟩
    · rw [uuids_prepend A]
      exact congrArg (prepend [A.nextId]) hmore
    · obtain ⟨hnext, hdrawn⟩ := drawn_prepend hdra
      have hhasB := halike.agree.hasOrder hhas
      have hkeyedA : (A.recordFill ⟨A.nextId, fill.orderId, fill.trackId, fill.seq, fill.at,
        fill.price, fill.qty, commission⟩).Keyed :=
        hA.recorded rfl hhas
      have hkeyedB : (B.recordFill ⟨A.nextId, fill.orderId, fill.trackId, fill.seq, fill.at,
        fill.price, fill.qty, commission⟩).Keyed :=
        hB.recorded hnext.symm hhasB
      obtain ⟨base', hposn', hagr, hrest, haccountA, haccountB⟩ :=
        hfoll _ rest hkeyedB (recordFill_agree halike.agree) hdrawn
      have hcommissionB := hcommi
      rw [commission_settings halike.settings] at hcommissionB
      have hfirstB := hfs
      rw [htak A hA hhas, halike.agree.fills, ← htak B hB hhasB] at hfirstB
      have hmade := fillOrder_made hqty hprc hcommissionB hfirstB hB (by rw [hnext]; exact hposn')
      rw [hnext] at hmade
      refine ⟨_, hmade, ?_, hrest, ?_⟩
      · obtain ⟨hbaseA, hmemA⟩ := (positionFor_ok hposn).keyed hkeyedA
        obtain ⟨hbaseB, hmemB⟩ := (positionFor_ok hposn').keyed hkeyedB
        exact settle_agree hagr hbaseA hbaseB hmemA hmemB filled_same.2.1
      · have hsomeA := commission_some hcommi
        have hsomeB := commission_some hcommissionB
        rw [settle_balance (by rw [haccountB]; exact hsomeB), settle_balance (by rw [haccountA]; exact hsomeA)]
        have hbalanceA : base.balance = A.balance := by
          unfold balance
          rw [haccountA]
          rfl
        have hbalanceB : base'.balance = B.balance := by
          unfold balance
          rw [haccountB]
          rfl
        rw [hbalanceA, hbalanceB]
        ring

/-! ## Operations of one track -/

/-- An operation that only reads and writes rows of its track, from ledgers with `Pre` on. -/
structure Local (t : Uuid) (C : String → Prop) (Pre : Ledger → Prop)
    (op : Ledger → Except ReplayError (List EventDraft × Ledger)) : Prop where
  kept : ∀ {A drafts A'}, A.Keyed → Pre A → op A = .ok (drafts, A') → A'.Keyed ∧ Beside t C A A'
  pre : ∀ {A B}, Agree t A B → Pre A → Pre B
  follows : ∀ {A drafts A'}, A.Keyed → Pre A → op A = .ok (drafts, A') →
    ∃ ids, A.uuids = prepend ids A'.uuids ∧ ∀ B rest, B.Keyed → Alike t C A B →
      B.uuids = prepend ids rest → ∃ B', op B = .ok (drafts, B') ∧ Agree t A' B' ∧ B'.uuids = rest ∧
        B'.balance + A.balance = A'.balance + B.balance

/-- A loop over operations of a track, none of which takes the ground from a later one. -/
theorem collect_local {I : Type} {round : Ledger → I → Except ReplayError (List EventDraft × Ledger)}
    {Has : I → Ledger → Prop} {items : List I}
    (hrnd : ∀ item ∈ items, Local t C (Has item) fun L => round L item)
    (hbeside : ∀ {L L' item}, Beside t C L L' → Has item L → Has item L') :
    Local t C (fun L => ∀ item ∈ items, Has item L) fun L => collect round L items := by
  induction items with
  | nil =>
    refine ⟨fun hA _ h => ?_, nofun, fun hA _ h => ?_⟩
    · cases h
      exact ⟨hA, .refl _ _ _⟩
    · cases h
      exact ⟨[], rfl, fun B rest _ halike hdra => ⟨B, rfl, halike.agree, hdra, add_comm _ _⟩⟩
  | cons item items ih =>
    have hfs := hrnd item mem_cons_self
    have hrest := ih fun other hoth => hrnd other (mem_cons_of_mem _ hoth)
    refine ⟨fun hA hpre h => ?_, fun hagr hpre other hoth => ?_, fun hA hpre h => ?_⟩
    · obtain ⟨first, mid, more, hmade, hmore, -⟩ := collect_cons_ok h
      obtain ⟨hmid, hmidBeside⟩ := hfs.kept hA (hpre item mem_cons_self) hmade
      obtain ⟨hfinal, hfinalBeside⟩ := hrest.kept hmid
        (fun other hoth => hbeside hmidBeside (hpre other (mem_cons_of_mem _ hoth))) hmore
      exact ⟨hfinal, hmidBeside.trans hfinalBeside⟩
    · exact (hrnd other hoth).pre hagr (hpre other hoth)
    · obtain ⟨first, mid, more, hmade, hmore, rfl⟩ := collect_cons_ok h
      have hhas := hpre item mem_cons_self
      obtain ⟨hmid, hmidBeside⟩ := hfs.kept hA hhas hmade
      have hlat : ∀ other ∈ items, Has other mid := fun other hoth =>
        hbeside hmidBeside (hpre other (mem_cons_of_mem _ hoth))
      obtain ⟨ids, hids, hfoll⟩ := hfs.follows hA hhas hmade
      obtain ⟨moreIds, hmoreIds, hfollowsMore⟩ := hrest.follows hmid hlat hmore
      refine ⟨ids ++ moreIds, ?_, fun B rest hB halike hdra => ?_⟩
      · rw [prepend_append, ← hmoreIds]
        exact hids
      · rw [prepend_append] at hdra
        obtain ⟨midB, hmadeB, hagr, hmidDraws, hmidBalance⟩ := hfoll B _ hB halike hdra
        obtain ⟨hmidB, hmidBesideB⟩ := hfs.kept hB (hfs.pre halike.agree hhas) hmadeB
        obtain ⟨final, hmoreB, hagreeB, hfinDr, hfinalBalance⟩ := hfollowsMore midB rest hmidB
          (halike.after hmidBeside hmidBesideB hagr) hmidDraws
        exact ⟨final, collect_cons hmadeB hmoreB, hagreeB, hfinDr, by linarith⟩

variable {bar : Bar}

theorem processBracket_local (htrk : p.trackId = t) (hcl : C (bracketClientId p bar)) :
    Local t C (fun _ => True) fun L => processBracket bar L p := by
  -- the order a bracket places is one of the track
  have hplaced : ∀ {X placed : Ledger} {id : Uuid},
      Inserted X (closingOrder p (bracketClientId p bar) |p.netQuantity| bar.openTime) id placed →
      HasOrder t id placed := by
    intro X placed id hins
    rw [hins.rows]
    exact ⟨_, mem_append_right _ mem_cons_self, rfl, htrk⟩
  refine ⟨fun hA _ h => ?_, fun _ _ => trivial, fun {A drafts A'} hA _ h => ?_⟩
  · rcases processBracket_ok h with ⟨-, rfl⟩ | ⟨price, kind, id, placed, filled, -, hins, hfill, -⟩
    · exact ⟨hA, .refl _ _ _⟩
    · obtain ⟨hkyd, hbeside⟩ := fillOrder_beside hfill (hA.inserted hins) (by rw [htrk]; exact hplaced hins)
      rw [htrk] at hbeside
      exact ⟨hkyd, (hins.beside htrk hcl).trans hbeside⟩
  · unfold processBracket at h ⊢
    cases hprc : bracketPrice p bar with
    | none =>
      rw [hprc] at h
      cases h
      exact ⟨[], rfl, fun B rest _ halike hdra => ⟨B, rfl, halike.agree, hdra, add_comm _ _⟩⟩
    | some =>
      rw [hprc] at h
      dsimp only at h ⊢
      split at h
      · rename_i htak
        cases h
        refine ⟨[], rfl, fun B rest _ halike hdra => ⟨B, ?_, halike.agree, hdra, add_comm _ _⟩⟩
        rw [halike.taken hcl] at htak
        rw [if_pos htak]
      · rename_i hnew
        obtain ⟨⟨id, placed⟩, hinse, h⟩ := bind_ok.mp h
        obtain ⟨⟨filled, closed⟩, hfill, h⟩ := bind_ok.mp h
        cases h
        have hins := insertOrder_ok hinse
        obtain ⟨ids, hids, hfoll⟩ := fillOrder_follows hfill (hA.inserted hins) (by rw [htrk]; exact hplaced hins)
        refine ⟨id :: ids, ?_, fun B rest hB halike hdra => ?_⟩
        · have hrows := congrArg Ledger.uuids hins.rows
          have hdrawn : placed.uuids = A.drawn := hrows
          rw [uuids_prepend A, ← hdrawn, hids, hins.drawn]
          rfl
        · have hplacedDraw : B.uuids = prepend [id] (prepend ids rest) := hdra
          obtain ⟨placedB, hinsertB, hagr, hplacedDraws, hacct⟩ :=
            insertOrder_follows hinse hB halike hcl hplacedDraw
          have hinsertedB := insertOrder_ok hinsertB
          have halikePlaced := halike.after (hins.beside htrk hcl) (hinsertedB.beside htrk hcl) hagr
          rw [← htrk] at halikePlaced hagr
          obtain ⟨closedB, hfillB, hclsd, hrest, hbal⟩ :=
            hfoll placedB rest (hB.inserted hinsertedB) halikePlaced hplacedDraws
          refine ⟨closedB, ?_, htrk ▸ hclsd, hrest, ?_⟩
          · rw [halike.taken hcl] at hnew
            rw [if_neg hnew, hinsertB]
            simp only [bind, Except.bind, hfillB]
            rfl
          · have hA' : placed.balance = A.balance := by rw [hins.rows]; rfl
            have hB' : placedB.balance = B.balance := by
              unfold balance
              rw [hacct]
            rw [hA', hB'] at hbal
            exact hbal

theorem processOrder_local (htrk : order.trackId = t) :
    Local t C (HasOrder t order.id) fun L => processOrder symbol bar L order := by
  subst htrk
  refine ⟨fun hA hhas h => ?_, fun hagr hhas => hagr.hasOrder hhas, fun hA hhas h => ?_⟩
  · rcases processOrder_ok h with ⟨-, rfl⟩ | ⟨price, -, hfill⟩
    · exact ⟨hA, .refl _ _ _⟩
    · exact fillOrder_beside hfill hA hhas
  · unfold processOrder at h ⊢
    split at h
    · cases h
      exact ⟨[], rfl, fun B rest _ halike hdra => ⟨B, rfl, halike.agree, hdra, add_comm _ _⟩⟩
    · exact fillOrder_follows h hA hhas

/-! ## Rows -/

theorem openPositions_agree (h : Agree t A B) : A.openPositions t = B.openPositions t := by
  have hshare : ∀ X : Ledger, (X.positions.filter fun p => p.trackId = t && p.netQuantity ≠ 0) =
      (ofKey (·.trackId) t X.positions).filter fun p => p.netQuantity ≠ 0 := by
    intro X
    unfold ofKey
    rw [List.filter_filter]
    exact filter_congr fun p _ => and_comm _ _
  unfold openPositions
  rw [hshare A, hshare B, h.positions]

theorem pendingOrders_agree (h : Agree t A B) : A.pendingOrders t = B.pendingOrders t := by
  have hshare : ∀ X : Ledger, (X.orders.filter fun order => order.trackId = t && order.status.active) =
      (ofKey (·.trackId) t X.orders).filter fun order => order.status.active := by
    intro X
    unfold ofKey
    rw [List.filter_filter]
    exact filter_congr fun order _ => and_comm _ _
  unfold pendingOrders
  rw [hshare A, hshare B, h.orders]

theorem hasActiveMarketState_agree (h : Agree t A B) : A.hasActiveMarketState t = B.hasActiveMarketState t := by
  have hords : ∀ X : Ledger, (X.orders.any fun order => order.trackId = t && order.status.active) =
      (ofKey (·.trackId) t X.orders).any fun order => order.trackId = t && order.status.active :=
    fun X => any_ofKey fun order _ hp => of_decide_eq_true (and_eq_true_iff.mp hp).1
  have hposs : ∀ X : Ledger, (X.positions.any fun p => p.trackId = t && p.netQuantity ≠ 0) =
      (ofKey (·.trackId) t X.positions).any fun p => p.trackId = t && p.netQuantity ≠ 0 :=
    fun X => any_ofKey fun p _ hp => of_decide_eq_true (and_eq_true_iff.mp hp).1
  unfold hasActiveMarketState
  rw [hords A, hords B, hposs A, hposs B, h.orders, h.positions]

theorem markToMarket_updated (L : Ledger) (t : Uuid) (bar : Bar) : (L.markToMarket t bar).positions =
    updateWhere (fun p => p.trackId = t && p.netQuantity ≠ 0)
      (fun p => { p with unrealizedPnl := p.mark bar.close }) L.positions := rfl

/-- A mark keeps the keys and writes on its track. -/
theorem markToMarket_beside (h : L.Keyed) (bar : Bar) : (L.markToMarket t bar).Keyed ∧ Beside t C L (L.markToMarket t bar) := by
  refine ⟨⟨h.orders, ?_, h.owned, h.injective, h.newOrder, h.newFill, fun p hp n => ?_⟩,
    fun k hk => ⟨rfl, rfl, ?_⟩, fun order hord => ⟨order, hord, rfl, rfl, rfl⟩,
    fun order hord => .inl ⟨order, hord, rfl, rfl⟩, refreshEquity_settings _, rfl⟩
  · rw [markToMarket_updated, map_updateWhere (by intro _; rfl)]
    exact h.positions
  · rcases updateWhere_cases hp with ⟨hold, -⟩ | ⟨old, hold, -, rfl⟩
    · exact h.newPosition p hold n
    · exact h.newPosition old hold n
  · refine ofKey_updateWhere_other (fun _ _ _ => rfl) fun p _ hopen htrk => hk ?_
    rw [← htrk]
    exact of_decide_eq_true (and_eq_true_iff.mp hopen).1

theorem markToMarket_agree (h : Agree t A B) (bar : Bar) : Agree t (A.markToMarket t bar) (B.markToMarket t bar) := by
  refine ⟨h.orders, h.fills, ?_⟩
  rw [markToMarket_updated, markToMarket_updated, ofKey_updateWhere (by intros; rfl),
    ofKey_updateWhere (by intros; rfl), h.positions]

theorem markToMarket_balance (L : Ledger) (t : Uuid) (bar : Bar) :
    (L.markToMarket t bar).balance = L.balance := refreshEquity_balance _

/-- **A revealed row reads its own track.** -/
theorem processRow_local :
    Local t C (fun L => ∀ p ∈ L.openPositions t, C (bracketClientId p bar))
      fun L => processRow t symbol L bar := by
  have hbrks : ∀ {X : Ledger}, (∀ p ∈ X.openPositions t, C (bracketClientId p bar)) →
      Local t C (fun L => ∀ p ∈ X.openPositions t, (fun _ _ => True) p L) fun L =>
        collect (processBracket bar) L (X.openPositions t) :=
    fun hX => collect_local (fun p hp => processBracket_local (mem_openPositions hp).2.1 (hX p hp)) fun _ _ => trivial
  have hords : ∀ X : Ledger, Local t C (fun L => ∀ order ∈ X.pendingOrders t, HasOrder t order.id L)
      fun L => collect (processOrder symbol bar) L (X.pendingOrders t) :=
    fun X => collect_local (fun order hord => processOrder_local (mem_pendingOrders.mp hord).2.1)
      fun hbeside hhas => hbeside.hasOrder hhas
  have hown : ∀ X : Ledger, ∀ order ∈ X.pendingOrders t, HasOrder t order.id X := fun X order hord =>
    ⟨order, (mem_pendingOrders.mp hord).1, rfl, (mem_pendingOrders.mp hord).2.1⟩
  refine ⟨fun {A drafts A'} hA hpre h => ?_, fun hagr hpre => openPositions_agree hagr ▸ hpre, fun {A drafts A'} hA hpre h => ?_⟩
  · obtain ⟨brackets, mid, fills, final, hmade, hfld, -, rfl⟩ := processRow_ok h
    obtain ⟨hmid, hmidBeside⟩ := (hbrks hpre).kept hA (fun _ _ => trivial) hmade
    obtain ⟨hfinal, hfinalBeside⟩ := (hords mid).kept hmid (hown mid) hfld
    obtain ⟨hmarked, hmarkedBeside⟩ := markToMarket_beside (C := C) (t := t) hfinal bar
    exact ⟨hmarked, (hmidBeside.trans hfinalBeside).trans hmarkedBeside⟩
  -- the other ledger draws the ids of the brackets, then those of the orders
  · obtain ⟨brackets, mid, fills, final, hmade, hfld, rfl, rfl⟩ := processRow_ok h
    obtain ⟨hmid, hmidBeside⟩ := (hbrks hpre).kept hA (fun _ _ => trivial) hmade
    obtain ⟨ids, hids, hfoll⟩ := (hbrks hpre).follows hA (fun _ _ => trivial) hmade
    obtain ⟨moreIds, hmoreIds, hfollowsMore⟩ := (hords mid).follows hmid (hown mid) hfld
    refine ⟨ids ++ moreIds, ?_, fun B rest hB halike hdra => ?_⟩
    · rw [prepend_append]
      exact hids.trans (congrArg (prepend ids) hmoreIds)
    · rw [prepend_append] at hdra
      obtain ⟨midB, hmadeB, hagr, hmidDraws, hmidBalance⟩ := hfoll B _ hB halike hdra
      obtain ⟨hmidB, hmidBesideB⟩ := (hbrks hpre).kept hB (fun _ _ => trivial) hmadeB
      obtain ⟨finalB, hfilledB, hagreeB, hrest, hbal⟩ := hfollowsMore midB rest hmidB
        (halike.after hmidBeside hmidBesideB hagr) hmidDraws
      refine ⟨finalB.markToMarket t bar, ?_, markToMarket_agree hagreeB bar, hrest, ?_⟩
      · rw [openPositions_agree halike.agree] at hmadeB
        rw [pendingOrders_agree hagr] at hfilledB
        unfold processRow processBrackets
        simp only [bind, Except.bind, hmadeB, hfilledB]
        rfl
      · rw [markToMarket_balance, markToMarket_balance]
        linarith

end Ledger

end MarketLens.Replay
