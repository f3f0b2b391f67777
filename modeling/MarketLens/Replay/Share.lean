import MarketLens.Lib.Interleave
import MarketLens.Replay.Equity

/-!
# The share of a track in the ledger

Orders, fills and positions belong to tracks, and what a revealed row does to the
ledger it reads off the rows of its own track. Only the uniqueness of ids and of
client ids looks further. So the same operation on two ledgers in which a track has
the same rows does the same, as long as it draws the same ids.
-/

namespace MarketLens.Replay

open Fallible Table Interleave List Nat

/-! ## Drawing ids -/

/-- A source of ids that draws `ids` first. -/
def prepend (ids : List Uuid) (rest : Nat → Uuid) : Nat → Uuid :=
  ids.foldr (fun id more n => Nat.casesOn n id more) rest

theorem prepend_append (ids more : List Uuid) (rest : Nat → Uuid) :
    prepend (ids ++ more) rest = prepend ids (prepend more rest) := foldr_append

variable {ids : List Uuid} {rest : Nat → Uuid}

theorem mem_prepend {id : Uuid} : (∃ n, prepend ids rest n = id) ↔ id ∈ ids ∨ ∃ n, rest n = id := by
  induction ids with
  | nil => simp [prepend]
  | cons first more ih =>
    have hcons : (∃ n, prepend (first :: more) rest n = id) ↔
        first = id ∨ ∃ n, prepend more rest n = id := by
      constructor
      · rintro ⟨n, hn⟩
        cases n with
        | zero => exact .inl hn
        | succ n => exact .inr ⟨n, hn⟩
      · rintro (rfl | ⟨n, hn⟩)
        · exact ⟨0, rfl⟩
        · exact ⟨n + 1, hn⟩
    rw [hcons, ih, mem_cons, or_assoc, eq_comm]

/-- A source draws no id twice if its first ids differ from each other and from the rest. -/
theorem prepend_injective : Function.Injective (prepend ids rest) ↔
      ids.Nodup ∧ Function.Injective rest ∧ ∀ id ∈ ids, ¬ ∃ n, rest n = id := by
  induction ids with
  | nil => simp [prepend]
  | cons first more ih =>
    have hcons : Function.Injective (prepend (first :: more) rest) ↔
        Function.Injective (prepend more rest) ∧ ¬ ∃ n, prepend more rest n = first := by
      constructor
      · intro h
        refine ⟨fun n m hnm => ?_, fun ⟨n, hn⟩ => ?_⟩
        · exact succ.inj (@h (n + 1) (m + 1) hnm)
        · exact absurd (@h (n + 1) 0 hn) (succ_ne_zero n)
      · rintro ⟨h, hfs⟩ n m hnm
        cases n with
        | zero =>
          cases m with
          | zero => rfl
          | succ m => exact absurd ⟨m, hnm.symm⟩ hfs
        | succ n =>
          cases m with
          | zero => exact absurd ⟨n, hnm⟩ hfs
          | succ => rw [h hnm]
    rw [hcons, ih, mem_prepend, nodup_cons, not_or]
    constructor
    · rintro ⟨⟨hmore, hrest, hapa⟩, hfs, hnew⟩
      exact ⟨⟨hfs, hmore⟩, hrest, fun id hid => (mem_cons.mp hid).elim (· ▸ hnew) (hapa id)⟩
    · rintro ⟨⟨hfs, hmore⟩, hrest, hapa⟩
      exact ⟨⟨hmore, hrest, fun id hid => hapa id (mem_cons_of_mem _ hid)⟩, hfs, hapa first mem_cons_self⟩

/-- One source draws the ids of another in another order, and none twice. -/
def Redraws (uuids other : Nat → Uuid) : Prop :=
  Function.Injective other ∧ ∀ id, (∃ n, other n = id) ↔ ∃ n, uuids n = id

theorem Redraws.trans {first second third : Nat → Uuid} (h : Redraws first second)
    (h' : Redraws second third) : Redraws first third :=
  ⟨h'.1, fun id => (h'.2 id).trans (h.2 id)⟩

/-- What is drawn first can be kept. -/
theorem Redraws.prepend {rest other : Nat → Uuid} (hinjective : Function.Injective (prepend ids rest)) (h : Redraws rest other) :
    Redraws (MarketLens.Replay.prepend ids rest) (MarketLens.Replay.prepend ids other) := by
  obtain ⟨hids, -, hapa⟩ := prepend_injective.mp hinjective
  refine ⟨prepend_injective.mpr ⟨hids, h.1, fun id hid => ?_⟩, fun id => ?_⟩
  · rw [h.2]
    exact hapa id hid
  · rw [mem_prepend, mem_prepend, h.2]

/-- What two operations draw can be drawn the other way round. -/
theorem redraws_swap {ids more : List Uuid} (hinjective : Function.Injective (prepend (ids ++ more) rest)) :
    Redraws (prepend (ids ++ more) rest) (prepend (more ++ ids) rest) := by
  obtain ⟨hids, hrest, hapa⟩ := prepend_injective.mp hinjective
  refine ⟨prepend_injective.mpr ⟨nodup_append_comm.mp hids, hrest, fun id hid => ?_⟩, fun id => ?_⟩
  · exact hapa id (mem_append.mpr (mem_append.mp hid).symm)
  · rw [mem_prepend, mem_prepend, mem_append, mem_append, or_comm (a := id ∈ more)]

/-! ## Rows of one track -/

section Rows

variable {Row : Type} {key : Row → Uuid} {table : List Row} {k : Uuid} {p : Row → Bool}

/-- A test that only rows of one track pass is a test of its share. -/
theorem any_ofKey (h : ∀ row ∈ table, p row = true → key row = k) : table.any p = (ofKey key k table).any p := by
  rw [Bool.eq_iff_iff, any_eq_true, any_eq_true]
  constructor
  · rintro ⟨row, hrow, hp⟩
    exact ⟨row, mem_filter.mpr ⟨hrow, decide_eq_true (h row hrow hp)⟩, hp⟩
  · rintro ⟨row, hrow, hp⟩
    exact ⟨row, (mem_filter.mp hrow).1, hp⟩

/-- A search that only a row of one track answers is a search of its share. -/
theorem find?_ofKey (h : ∀ row, p row = true → key row = k) (table : List Row) : table.find? p = (ofKey key k table).find? p := by
  unfold ofKey
  rw [find?_filter]
  refine congrArg (fun q => table.find? q) (funext fun row => ?_)
  cases hp : p row with
  | false => simp
  | true => simp [h row hp]

theorem ofKey_updateWhere {f : Row → Row} (hkey : ∀ row ∈ table, p row = true → key (f row) = key row) :
    ofKey key k (updateWhere p f table) = updateWhere p f (ofKey key k table) := by
  unfold ofKey updateWhere
  rw [filter_map]
  refine congrArg (map _) (filter_congr fun row hrow => ?_)
  rw [Function.comp_apply]
  split
  · rename_i hp
    rw [hkey row hrow hp]
  · rfl

theorem ofKey_updateWhere_other {f : Row → Row} (hkey : ∀ row ∈ table, p row = true → key (f row) = key row)
    (hoth : ∀ row ∈ table, p row = true → key row ≠ k) :
    ofKey key k (updateWhere p f table) = ofKey key k table := by
  rw [ofKey_updateWhere hkey]
  refine updateWhere_none fun row hrow => ?_
  obtain ⟨hmem, hsame⟩ := mem_filter.mp hrow
  exact Bool.eq_false_of_not_eq_true fun hp => hoth row hmem hp (of_decide_eq_true hsame)

theorem mem_ofKey {row : Row} : row ∈ ofKey key k table ↔ row ∈ table ∧ key row = k := by
  unfold ofKey
  rw [mem_filter, decide_eq_true_iff]

end Rows

/-- The account but for its balance and equity. -/
def AccountRow.settings (account : AccountRow) : AccountRow :=
  { account with balance := 0, equity := 0 }

namespace Ledger

variable {t k : Uuid} {C : String → Prop} {A A' B B' L L' : Ledger} {drafts : List EventDraft}

/-! ## Keys -/

/-- The keys of the tables: ids are unique, a fill belongs to an order of its track, and an id that is
drawn is new. -/
structure Keyed (L : Ledger) : Prop where
  orders : (L.orders.map (·.id)).Nodup
  positions : (L.positions.map (·.id)).Nodup
  owned : ∀ fill ∈ L.fills, ∃ order ∈ L.orders, order.id = fill.orderId ∧ order.trackId = fill.trackId
  injective : Function.Injective L.uuids
  newOrder : ∀ order ∈ L.orders, ∀ n, L.uuids n ≠ order.id
  newFill : ∀ fill ∈ L.fills, ∀ n, L.uuids n ≠ fill.id
  newPosition : ∀ p ∈ L.positions, ∀ n, L.uuids n ≠ p.id

theorem Keyed.drawn (h : L.Keyed) : ({ L with uuids := L.drawn } : Ledger).Keyed where
  orders := h.orders
  positions := h.positions
  owned := h.owned
  injective _ _ hsame := succ.inj (h.injective hsame)
  newOrder order hord n := h.newOrder order hord (n + 1)
  newFill fill hfill n := h.newFill fill hfill (n + 1)
  newPosition p hp n := h.newPosition p hp (n + 1)

/-- The keys stay keys when the ids are drawn in another order. -/
theorem Keyed.redraws {other : Nat → Uuid} (h : L.Keyed) (hred : Redraws L.uuids other) :
    ({ L with uuids := other } : Ledger).Keyed where
  orders := h.orders
  positions := h.positions
  owned := h.owned
  injective := hred.1
  newOrder order hord n hsame := by
    obtain ⟨m, hm⟩ := (hred.2 _).mp ⟨n, rfl⟩
    exact h.newOrder order hord m (hm.trans hsame)
  newFill fill hfill n hsame := by
    obtain ⟨m, hm⟩ := (hred.2 _).mp ⟨n, rfl⟩
    exact h.newFill fill hfill m (hm.trans hsame)
  newPosition p hp n hsame := by
    obtain ⟨m, hm⟩ := (hred.2 _).mp ⟨n, rfl⟩
    exact h.newPosition p hp m (hm.trans hsame)

variable {id : Uuid} {order : OrderRow}

theorem Keyed.inserted (h : L.Keyed) (hins : Inserted L order id L') : L'.Keyed := by
  rw [hins.rows, hins.drawn]
  refine ⟨?_, h.positions, fun fill hfill => ?_, h.drawn.injective, fun row hrow n => ?_, h.drawn.newFill, h.drawn.newPosition⟩
  · exact nodup_insert h.orders fun row hrow => (h.newOrder row hrow 0).symm
  · obtain ⟨row, hrow, hsame⟩ := h.owned fill hfill
    exact ⟨row, mem_append_left _ hrow, hsame⟩
  · rcases mem_append.mp hrow with hold | hnew
    · exact h.newOrder row hold (n + 1)
    · rw [mem_singleton.mp hnew]
      exact fun hsame => absurd (h.injective hsame) (succ_ne_zero n)

/-- An order of a track, by its id. -/
def HasOrder (t id : Uuid) (L : Ledger) : Prop := ∃ order ∈ L.orders, order.id = id ∧ order.trackId = t

theorem HasOrder.track (h : HasOrder t order.id L) (hkyd : L.Keyed) (hord : order ∈ L.orders) : order.trackId = t := by
  obtain ⟨own, hown, hid, htrk⟩ := h
  rw [← inj_on_of_nodup_map hkyd.orders hown hord hid]
  exact htrk

theorem HasOrder.fill {fill : FillRow} (h : HasOrder t fill.orderId L) (hkyd : L.Keyed)
    (hfill : fill ∈ L.fills) : fill.trackId = t := by
  obtain ⟨order, hord, hid, htrk⟩ := hkyd.owned fill hfill
  rw [← htrk]
  exact (hid ▸ h : HasOrder t order.id L).track hkyd hord

/-! ## What is written on one track -/

structure Agree (k : Uuid) (A B : Ledger) : Prop where
  orders : ofKey (·.trackId) k A.orders = ofKey (·.trackId) k B.orders
  fills : ofKey (·.trackId) k A.fills = ofKey (·.trackId) k B.fills
  positions : ofKey (·.trackId) k A.positions = ofKey (·.trackId) k B.positions

theorem Agree.refl (k : Uuid) (L : Ledger) : Agree k L L := ⟨rfl, rfl, rfl⟩

theorem Agree.symm (h : Agree k A B) : Agree k B A :=
  ⟨h.orders.symm, h.fills.symm, h.positions.symm⟩

theorem Agree.trans (h : Agree k A B) (h' : Agree k B L) : Agree k A L :=
  ⟨h.orders.trans h'.orders, h.fills.trans h'.fills, h.positions.trans h'.positions⟩

/-- Only rows of one track are written, no order goes, and new ones have client ids in `C`. -/
structure Beside (t : Uuid) (C : String → Prop) (L L' : Ledger) : Prop where
  agree : ∀ k, k ≠ t → Agree k L' L
  keeps : ∀ order ∈ L.orders, ∃ row ∈ L'.orders, row.id = order.id ∧ row.trackId = order.trackId ∧
    row.clientOrderId = order.clientOrderId
  clients : ∀ order ∈ L'.orders, (∃ row ∈ L.orders, row.trackId = order.trackId ∧
    row.clientOrderId = order.clientOrderId) ∨ (order.trackId = t ∧ C order.clientOrderId)
  settings : L'.account.map AccountRow.settings = L.account.map AccountRow.settings
  points : L'.equityPoints = L.equityPoints

theorem Beside.refl (t : Uuid) (C : String → Prop) (L : Ledger) : Beside t C L L :=
  ⟨fun k _ => .refl k L, fun order hord => ⟨order, hord, rfl, rfl, rfl⟩, fun order hord => .inl ⟨order, hord, rfl, rfl⟩, rfl, rfl⟩

theorem Beside.trans (h : Beside t C A B) (h' : Beside t C B L) : Beside t C A L := by
  refine ⟨fun k hk => (h'.agree k hk).trans (h.agree k hk), fun order hord => ?_,
    fun order hord => ?_, h'.settings.trans h.settings, h'.points.trans h.points⟩
  · obtain ⟨mid, hmid, hid, htrk, hcl⟩ := h.keeps order hord
    obtain ⟨row, hrow, hid', htrk', hcl'⟩ := h'.keeps mid hmid
    exact ⟨row, hrow, hid'.trans hid, htrk'.trans htrk, hcl'.trans hcl⟩
  · rcases h'.clients order hord with ⟨mid, hmid, htrk, hcl⟩ | hnew
    · rcases h.clients mid hmid with ⟨row, hrow, htrk', hcl'⟩ | hnew
      · exact .inl ⟨row, hrow, htrk'.trans htrk, hcl'.trans hcl⟩
      · rw [htrk, hcl] at hnew
        exact .inr hnew
    · exact .inr hnew

theorem Beside.hasOrder (h : Beside t C L L') {other : Uuid} (hhas : HasOrder other id L) : HasOrder other id L' := by
  obtain ⟨order, hord, hid, htrk⟩ := hhas
  obtain ⟨row, hrow, hid', htrk', -⟩ := h.keeps order hord
  exact ⟨row, hrow, hid'.trans hid, htrk'.trans htrk⟩

theorem Inserted.beside (h : Inserted L order id L')
    (htrk : order.trackId = t) (hcl : C order.clientOrderId) : Beside t C L L' := by
  rw [h.rows]
  refine ⟨fun k hk => ⟨?_, rfl, rfl⟩, fun row hrow => ⟨row, mem_append_left _ hrow, rfl, rfl, rfl⟩, fun row hrow => ?_, rfl, rfl⟩
  · rw [ofKey_append, @ofKey_none _ _ _ _ _ [_] fun row hrow => ?_, append_nil]
    rw [mem_singleton.mp hrow]
    exact fun hsame => hk (hsame.symm.trans htrk)
  · rcases mem_append.mp hrow with hold | hnew
    · exact .inl ⟨row, hold, rfl, rfl⟩
    · rw [mem_singleton.mp hnew]
      exact .inr ⟨htrk, hcl⟩

section Filled

variable {fill : FillRequest} {row : FillRow} {p position : PositionRow} {realized : Decimal}
  {base : Ledger}

theorem PositionFor.keyed {symbol : String} (h : PositionFor L t symbol p base) (hkyd : L.Keyed) :
    base.Keyed ∧ p ∈ base.positions := by
  cases h with
  | found mem => exact ⟨hkyd, mem⟩
  | opened _ _ empty =>
    have hid : p.id = L.nextId := by rw [empty]; rfl
    refine ⟨⟨hkyd.orders, ?_, hkyd.owned, hkyd.drawn.injective, hkyd.drawn.newOrder,
      hkyd.drawn.newFill, fun q hq n => ?_⟩, mem_append_right _ mem_cons_self⟩
    · exact nodup_insert hkyd.positions fun q hq hsame => hkyd.newPosition q hq 0 (hsame.trans hid).symm
    · rcases mem_append.mp hq with hold | hnew
      · exact hkyd.newPosition q hold (n + 1)
      · rw [mem_singleton.mp hnew, hid]
        exact fun hsame => absurd (hkyd.injective hsame) (succ_ne_zero n)

theorem Keyed.moved {account : Option AccountRow} (h : base.Keyed) (hid : position.id = p.id) :
    ({ base with
      account := account
      positions := updateWhere (fun other => other.id = p.id) (fun _ => position) base.positions } :
      Ledger).Keyed := by
  refine ⟨h.orders, ?_, h.owned, h.injective, h.newOrder, h.newFill, fun q hq n => ?_⟩
  · rw [map_updateWhere_of fun other hoth => by rw [hid, of_decide_eq_true hoth]]
    exact h.positions
  · rcases updateWhere_cases hq with ⟨hold, -⟩ | ⟨old, hold, hsame, rfl⟩
    · exact h.newPosition q hold n
    · rw [hid, ← of_decide_eq_true hsame]
      exact h.newPosition old hold n

theorem Keyed.recorded (h : L.Keyed) (hid : row.id = L.nextId) (howned : HasOrder row.trackId row.orderId L) :
    (L.recordFill row).Keyed := by
  have hids : (L.recordFill row).orders.map (·.id) = L.orders.map (·.id) :=
    map_updateWhere (f := filledOrder) (fun _ => rfl) _
  have hkept : ∀ order ∈ L.orders, ∃ other ∈ (L.recordFill row).orders, other.id = order.id ∧ other.trackId = order.trackId := by
    intro order hord
    exact exists_updateWhere hord ⟨rfl, rfl⟩ fun _ => ⟨rfl, rfl⟩
  refine ⟨hids ▸ h.orders, h.positions, fun fill hfill => ?_, h.drawn.injective, fun order hord n => ?_,
    fun fill hfill n => ?_, h.drawn.newPosition⟩
  · have hsome : ∃ order ∈ L.orders, order.id = fill.orderId ∧ order.trackId = fill.trackId := by
      rcases mem_append.mp hfill with hold | hnew
      · exact h.owned fill hold
      · rw [mem_singleton.mp hnew]
        exact howned
    obtain ⟨order, hord, hsame, htrk⟩ := hsome
    obtain ⟨other, hoth, hid', htrk'⟩ := hkept order hord
    exact ⟨other, hoth, hid'.trans hsame, htrk'.trans htrk⟩
  · obtain ⟨old, hold, hsame⟩ := exists_of_map_eq hids hord
    rw [← hsame]
    exact h.newOrder old hold (n + 1)
  · rcases mem_append.mp hfill with hold | hnew
    · exact h.newFill fill hold (n + 1)
    · rw [mem_singleton.mp hnew, hid]
      exact fun hsame => absurd (h.injective hsame) (succ_ne_zero n)

theorem Filled.keyed (h : Filled L fill drafts L' row p position realized base) (hkyd : L.Keyed)
    (hhas : HasOrder fill.trackId fill.orderId L) : L'.Keyed := by
  have hrow : row.id = L.nextId ∧ row.trackId = fill.trackId ∧ row.orderId = fill.orderId := by
    rw [h.made]
    exact ⟨rfl, rfl, rfl⟩
  have hrecd := hkyd.recorded hrow.1 (by rw [hrow.2.1, hrow.2.2]; exact hhas)
  rw [h.rows]
  exact (h.applies.keyed hrecd).1.moved h.position_id

theorem PositionFor.beside {symbol : String} (h : PositionFor L t symbol p base) : Beside t C L base := by
  cases h with
  | found => exact .refl t C L
  | opened _ _ empty =>
    refine ⟨fun k hk => ⟨rfl, rfl, ?_⟩, fun order hord => ⟨order, hord, rfl, rfl, rfl⟩,
      fun order hord => .inl ⟨order, hord, rfl, rfl⟩, rfl, rfl⟩
    rw [ofKey_append, @ofKey_none _ _ _ _ _ [_] fun q hq => ?_, append_nil]
    rw [mem_singleton.mp hq, empty]
    exact fun hsame => hk hsame.symm

theorem book_settings (L : Ledger) (amount : Decimal) :
    (L.book amount).account.map AccountRow.settings = L.account.map AccountRow.settings := by
  unfold book
  cases L.account <;> rfl

theorem refreshEquity_settings (L : Ledger) :
    L.refreshEquity.account.map AccountRow.settings = L.account.map AccountRow.settings := by
  unfold refreshEquity
  cases L.account <;> rfl

theorem Filled.beside (h : Filled L fill drafts L' row p position realized base) (hkyd : L.Keyed)
    (hhas : HasOrder fill.trackId fill.orderId L) : Beside fill.trackId C L L' := by
  have hrow : row.id = L.nextId ∧ row.trackId = fill.trackId ∧ row.orderId = fill.orderId := by
    rw [h.made]
    exact ⟨rfl, rfl, rfl⟩
  have hrecd : Beside fill.trackId C L (L.recordFill row) := by
    refine ⟨fun k hk => ⟨?_, ?_, rfl⟩, fun order hord => ⟨_, mem_updateWhere.mpr ⟨order, hord, rfl⟩, ?_⟩,
      fun order hord => .inl ?_, rfl, rfl⟩
    · refine ofKey_updateWhere_other (fun _ _ _ => rfl) fun order hord hsame htrk => hk ?_
      rw [← htrk]
      refine (HasOrder.track ?_ hkyd hord)
      rw [of_decide_eq_true hsame, hrow.2.2]
      exact hhas
    · dsimp only [recordFill]
      rw [ofKey_append, @ofKey_none _ _ _ _ _ [row] fun other hoth => ?_, append_nil]
      rw [mem_singleton.mp hoth, hrow.2.1]
      exact hk.symm
    · split <;> exact ⟨rfl, rfl, rfl⟩
    · rcases updateWhere_cases hord with ⟨hold, -⟩ | ⟨old, hold, -, rfl⟩
      · exact ⟨order, hold, rfl, rfl⟩
      · exact ⟨old, hold, rfl, rfl⟩
  have hbase : Beside fill.trackId C L base := hrecd.trans h.applies.beside
  have hposn : p.trackId = fill.trackId := h.applies.trackId
  obtain ⟨hkeyedBase, hmem⟩ := h.applies.keyed (hkyd.recorded hrow.1 (by rw [hrow.2.1, hrow.2.2]; exact hhas))
  refine hbase.trans ?_
  rw [h.rows]
  refine ⟨fun k hk => ⟨rfl, rfl, ?_⟩, fun order hord => ⟨order, hord, rfl, rfl, rfl⟩,
    fun order hord => .inl ⟨order, hord, rfl, rfl⟩, ?_, rfl⟩
  · refine ofKey_updateWhere_other (fun q hq hsame => ?_) fun q hq hsame htrk => hk ?_
    · rw [inj_on_of_nodup_map hkeyedBase.positions hq hmem (of_decide_eq_true hsame), h.position_eq, filled_same.2.1]
    · rw [← htrk, inj_on_of_nodup_map hkeyedBase.positions hq hmem (of_decide_eq_true hsame), hposn]
  · exact (refreshEquity_settings _).trans (book_settings _ _)

end Filled

theorem fillOrder_beside {fill : FillRequest} (h : L.fillOrder fill = .ok (drafts, L')) (hkyd : L.Keyed)
    (hhas : HasOrder fill.trackId fill.orderId L) : L'.Keyed ∧ Beside fill.trackId C L L' := by
  obtain ⟨-, -, ⟨-, -, rfl⟩ | ⟨row, p, position, realized, base, hfld⟩⟩ := fillOrder_ok h
  · exact ⟨hkyd, .refl _ _ _⟩
  · exact ⟨hfld.keyed hkyd hhas, hfld.beside hkyd hhas⟩

end Ledger

end MarketLens.Replay
