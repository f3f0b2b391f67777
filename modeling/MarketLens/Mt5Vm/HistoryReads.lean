import Mathlib.Data.String.Basic
import MarketLens.Mt5Vm.Coverage
import MarketLens.Mt5Vm.HistoryCursor

/-!
# Following the cursors

The rows of a window are strictly ordered by their places, since a ticket is the key of
its table. Read page by page, each page from the cursor of the one before, they come
once each and in their order.
-/

namespace MarketLens.Mt5Vm

open List Bool Place Paging HistoryWindow Fallible

variable {collation : Collation} {digest : Digest} {store : HistoryStore} {window : HistoryWindow}

/-! ## The order of places -/

theorem Collation.lt_iff {a b : String} : collation.lt a b = true ↔ collation.le a b = true ∧ a ≠ b := by
  unfold Collation.lt
  rw [not_eq_true']
  constructor
  · intro h
    have hle : collation.le a b = true := by
      rcases collation.total a b with hle | hle
      · exact hle
      · rw [h] at hle
        cases hle
    refine ⟨hle, ?_⟩
    rintro rfl
    rw [h] at hle
    cases hle
  · rintro ⟨hle, hne⟩
    rw [← not_eq_true]
    exact fun hge => hne (collation.antisymm a b hle hge)

theorem Collation.lt_trans {a b c : String} (hab : collation.lt a b = true) (hbc : collation.lt b c = true) :
    collation.lt a c = true := by
  rw [Collation.lt_iff] at hab hbc ⊢
  refine ⟨collation.trans a b c hab.1 hbc.1, ?_⟩
  rintro rfl
  exact hab.2 (collation.antisymm a b hab.1 hbc.1)

theorem Collation.lt_asymm {a b : String} (h : collation.lt a b = true) : collation.lt b a = false := by
  rw [← not_eq_true, Collation.lt_iff]
  rw [Collation.lt_iff] at h
  exact fun hba => h.2 (collation.antisymm a b h.1 hba.1)

theorem Collation.lt_trichotomy (collation : Collation) (a b : String) : collation.lt a b = true ∨ a = b ∨ collation.lt b a = true := by
  by_cases h : a = b
  · exact .inr (.inl h)
  · rcases collation.total a b with hle | hle
    · exact .inl (Collation.lt_iff.mpr ⟨hle, h⟩)
    · exact .inr (.inr (Collation.lt_iff.mpr ⟨hle, fun hba => h hba.symm⟩))

theorem Place.lt_iff {a b : Place} : a.lt collation b = true ↔ a.eventMs < b.eventMs ∨
    (a.eventMs = b.eventMs ∧ (collation.lt a.family b.family = true ∨
      (a.family = b.family ∧ collation.lt a.ticket b.ticket = true))) := by
  unfold lt
  simp only [or_eq_true, and_eq_true, decide_eq_true_eq]

theorem Place.lt_asymm (a b : Place) (h : a.lt collation b = true) : b.lt collation a = false := by
  rw [← not_eq_true, lt_iff]
  rw [lt_iff] at h
  intro hback
  have hno : ∀ x y : String, collation.lt x y = true → collation.lt y x = true → False := by
    intro x y hxy hyx
    rw [Collation.lt_asymm hxy] at hyx
    cases hyx
  rcases h with h | ⟨htime, h | ⟨hfam, h⟩⟩
  · rcases hback with hback | ⟨hsame, -⟩ <;> omega
  · rcases hback with hback | ⟨-, hback | ⟨hsame, -⟩⟩
    · omega
    · exact hno _ _ h hback
    · rw [hsame] at h
      exact hno _ _ h h
  · rcases hback with hback | ⟨-, hback | ⟨-, hback⟩⟩
    · omega
    · rw [hfam] at hback
      exact hno _ _ hback hback
    · exact hno _ _ h hback

theorem Place.lt_trans {a b c : Place} (hab : a.lt collation b = true) (hbc : b.lt collation c = true) :
    a.lt collation c = true := by
  rw [lt_iff] at hab hbc ⊢
  rcases hab with hab | ⟨htime, hab⟩
  · rcases hbc with hbc | ⟨htime', -⟩ <;> exact .inl (by omega)
  · rcases hbc with hbc | ⟨htime', hbc⟩
    · exact .inl (by omega)
    · refine .inr ⟨htime.trans htime', ?_⟩
      rcases hab with hab | ⟨hfam, hab⟩
      · rcases hbc with hbc | ⟨hfam', -⟩
        · exact .inl (Collation.lt_trans hab hbc)
        · exact .inl (hfam' ▸ hab)
      · rcases hbc with hbc | ⟨hfam', hbc⟩
        · exact .inl (hfam ▸ hbc)
        · exact .inr ⟨hfam.trans hfam', Collation.lt_trans hab hbc⟩

theorem Place.trichotomy (collation : Collation) (a b : Place) : a.lt collation b = true ∨ a = b ∨ b.lt collation a = true := by
  rcases lt_trichotomy a.eventMs b.eventMs with h | htime | h
  · exact .inl (lt_iff.mpr (.inl h))
  · rcases Collation.lt_trichotomy collation a.family b.family with h | hfam | h
    · exact .inl (lt_iff.mpr (.inr ⟨htime, .inl h⟩))
    · rcases Collation.lt_trichotomy collation a.ticket b.ticket with h | htkt | h
      · exact .inl (lt_iff.mpr (.inr ⟨htime, .inr ⟨hfam, h⟩⟩))
      · refine .inr (.inl ?_)
        rw [mk.injEq]
        exact ⟨htime, hfam, htkt⟩
      · exact .inr (.inr (lt_iff.mpr (.inr ⟨htime.symm, .inr ⟨hfam.symm, h⟩⟩)))
    · exact .inr (.inr (lt_iff.mpr (.inr ⟨htime.symm, .inl h⟩)))
  · exact .inr (.inr (lt_iff.mpr (.inl h)))

/-! ## The rows of a window -/

variable {row : HistoryRow}

theorem orderRow?_some {order : HistoryOrder} (h : window.orderRow? order = some row) :
    order.accountId = window.accountId ∧ row.family = "orders_history" ∧ row.brokerTicket = order.brokerTicket ∧
      ∃ event, window.contains event = true ∧ row.eventMs = epochMs event := by
  unfold orderRow? at h
  split at h
  · cases h
  rename_i event _
  split at h
  · rename_i hmeets
    cases h
    simp only [and_eq_true, decide_eq_true_eq] at hmeets
    exact ⟨hmeets.1.2, rfl, rfl, event, hmeets.2, rfl⟩
  · cases h

theorem dealRow?_some {deal : Deal} (h : window.dealRow? deal = some row) :
    deal.accountId = window.accountId ∧ row.family = "deals" ∧ row.brokerTicket = deal.brokerTicket ∧
      ∃ event, window.contains event = true ∧ row.eventMs = epochMs event := by
  unfold dealRow? at h
  split at h
  · rename_i hmeets
    cases h
    simp only [and_eq_true, decide_eq_true_eq] at hmeets
    exact ⟨hmeets.1.2, rfl, rfl, deal.occurredAt, hmeets.2, rfl⟩
  · cases h

theorem nodup_tickets {Row : Type} {key : Row → AccountId × String} (window : HistoryWindow) (table : BrokerTable Row key)
    {row? : Row → Option HistoryRow} (hrow : ∀ stored row, row? stored = some row → key stored = (window.accountId, row.brokerTicket)) :
    ((table.rows.filterMap row?).map HistoryRow.brokerTicket).Nodup := by
  have hkeys : ((table.rows.filterMap row?).map fun row => (window.accountId, row.brokerTicket)).Nodup :=
    table.unique.sublist (Table.filterMap_sublist (fun stored row h => (hrow stored row h).symm) table.rows)
  refine List.Nodup.of_map (fun ticket => (window.accountId, ticket)) ?_
  rw [map_map]
  exact hkeys

section
variable (collation : Collation) (store : HistoryStore) (window : HistoryWindow)

theorem HistoryWindow.rows_perm :
    (window.rows collation store).Perm
      (store.orders.rows.filterMap window.orderRow? ++ store.deals.rows.filterMap window.dealRow?) :=
  perm_insertionSort _ _

/-- **The rows of a window are strictly ordered.** -/
theorem HistoryWindow.rows_sorted :
    (window.rows collation store).Pairwise fun a b => a.place.lt collation b.place = true := by
  have hle : (window.rows collation store).Pairwise fun a b => b.place.lt collation a.place = false := by
    have : Std.Total fun a b : HistoryRow => b.place.lt collation a.place = false := ⟨fun a b => by
      rcases trichotomy collation a.place b.place with h | h | h
      · exact .inl (lt_asymm _ _ h)
      · rw [h]
        cases hself : b.place.lt collation b.place with
        | false => exact .inl rfl
        | true =>
          have := lt_asymm _ _ hself
          rw [hself] at this
          cases this
      · exact .inr (lt_asymm _ _ h)⟩
    have : IsTrans HistoryRow fun a b => b.place.lt collation a.place = false := ⟨fun a b c hab hbc => by
      cases hca : c.place.lt collation a.place with
      | false => rfl
      | true =>
        rcases trichotomy collation a.place b.place with h | h | h
        · rw [lt_trans hca h] at hbc
          cases hbc
        · rw [h, hbc] at hca
          cases hca
        · rw [h] at hab
          cases hab⟩
    exact pairwise_insertionSort _ _
  -- tickets differ within a table, the families differ between the two
  have hplaces : ((window.rows collation store).map HistoryRow.place).Nodup := by
    rw [((window.rows_perm collation store).map _).nodup_iff, map_append, nodup_append]
    refine ⟨?_, ?_, ?_⟩
    · refine List.Nodup.of_map ticket ?_
      rw [map_map]
      refine nodup_tickets window store.orders fun order row h => ?_
      obtain ⟨hacct, -, htkt, -⟩ := orderRow?_some h
      unfold HistoryOrder.key
      rw [hacct, htkt]
    · refine List.Nodup.of_map ticket ?_
      rw [map_map]
      refine nodup_tickets window store.deals fun deal row h => ?_
      obtain ⟨hacct, -, htkt, -⟩ := dealRow?_some h
      unfold Deal.key
      rw [hacct, htkt]
    · intro place hpl place' hpl' hsame
      obtain ⟨row, hrow, rfl⟩ := mem_map.mp hpl
      obtain ⟨row', hrow', rfl⟩ := mem_map.mp hpl'
      obtain ⟨order, -, hord⟩ := mem_filterMap.mp hrow
      obtain ⟨deal, -, hdeal⟩ := mem_filterMap.mp hrow'
      have hfam : row.family = row'.family := congrArg family hsame
      rw [(orderRow?_some hord).2.1, (dealRow?_some hdeal).2.1] at hfam
      exact absurd hfam (by decide)
  refine (hle.and (pairwise_map.mp hplaces)).imp fun {a b} h => ?_
  rcases trichotomy collation a.place b.place with hlt | heq | hgt
  · exact hlt
  · exact absurd heq h.2
  · rw [h.1] at hgt
    cases hgt

end

theorem epochMs_within {event : Int} (h : window.contains event = true) :
    window.fromMs ≤ epochMs event ∧ epochMs event ≤ window.toMs := by
  simp only [HistoryWindow.contains, and_eq_true, decide_eq_true_eq] at h
  unfold toTimestamp at h
  unfold epochMs
  split <;> omega

theorem HistoryWindow.stored_places {collation : Collation} {store : HistoryStore} {window : HistoryWindow}
    (htimes : isI64 window.fromMs = true ∧ isI64 window.toMs = true) (h : row ∈ window.rows collation store) : row.place.Stored := by
  have htime : ∀ event, window.contains event = true → isI64 (epochMs event) = true := by
    intro event hwthn
    obtain ⟨hfrom, hto⟩ := epochMs_within hwthn
    simp only [isI64, and_eq_true, decide_eq_true_eq] at htimes ⊢
    omega
  rw [(window.rows_perm collation store).mem_iff, mem_append] at h
  rcases h with h | h
  · obtain ⟨order, hmem, hord⟩ := mem_filterMap.mp h
    obtain ⟨-, hfam, htkt, event, hwthn, hms⟩ := orderRow?_some hord
    refine ⟨.inl hfam, ?_, ?_⟩
    · show validTicket row.brokerTicket = true
      rw [htkt]
      exact store.orders.tickets order hmem
    · show isI64 row.eventMs = true
      rw [hms]
      exact htime event hwthn
  · obtain ⟨deal, hmem, hdeal⟩ := mem_filterMap.mp h
    obtain ⟨-, hfam, htkt, event, hwthn, hms⟩ := dealRow?_some hdeal
    refine ⟨.inr hfam, ?_, ?_⟩
    · show validTicket row.brokerTicket = true
      rw [htkt]
      exact store.deals.tickets deal hmem
    · show isI64 row.eventMs = true
      rw [hms]
      exact htime event hwthn

/-! ## One page -/

/-- The orders, or the deals, among the rows. -/
def ordersOf (rows : List HistoryRow) : List HistoryObject := (rows.filter (·.family = "orders_history")).map (·.payload)

def dealsIn (rows : List HistoryRow) : List HistoryObject := (rows.filter (·.family ≠ "orders_history")).map (·.payload)

theorem splitPage_eq (cursorAt : Place → String) (hasMore : Bool) (limit : Nat) (rows : List HistoryRow) (index : Nat) :
    splitPage cursorAt hasMore limit index rows = (ordersOf (rows.take (limit - index)), dealsIn (rows.take (limit - index)),
        if hasMore && index < limit then rows[limit - 1 - index]?.map fun row => cursorAt row.place else none) := by
  induction rows generalizing index with
  | nil =>
    rw [splitPage]
    simp [ordersOf, dealsIn]
  | cons row rest ih =>
    rw [splitPage]
    split
    · rename_i hpast
      have hzero : limit - index = 0 := by omega
      simp [hzero, ordersOf, dealsIn, Nat.not_lt.mpr hpast]
    · have hlt : index < limit := by omega
      have htake : (row :: rest).take (limit - index) = row :: rest.take (limit - (index + 1)) := by
        have hsucc : limit - index = (limit - (index + 1)) + 1 := by omega
        rw [hsucc, take_succ_cons]
      have hnext : (if hasMore && index < limit then (row :: rest)[limit - 1 - index]?.map fun row => cursorAt row.place else none)
          = (if hasMore && index + 1 < limit then rest[limit - 1 - (index + 1)]?.map fun row => cursorAt row.place
              else none).or (if hasMore && index = limit - 1 then some (cursorAt row.place) else none) := by
        by_cases hlast : index = limit - 1
        · obtain rfl : limit = index + 1 := by omega
          simp
        · have hsucc : limit - 1 - index = (limit - 1 - (index + 1)) + 1 := by omega
          have hmore : index + 1 < limit := by omega
          simp [hlast, hmore, hlt, hsucc]
      rw [ih, htake, hnext]
      dsimp only
      split
      · rename_i hord
        simp [ordersOf, dealsIn, hord]
      · rename_i hdeal
        simp [ordersOf, dealsIn, hdeal]

/-- **A page is a cut of the rows** after its cursor. -/
theorem readHistoryPage_eq (limit : Nat) (hlimit : 0 < limit) (cursor : Option Place) :
    let part := cut HistoryRow.place limit (after (lt collation) HistoryRow.place (window.rows collation store) cursor)
    readHistoryPage collation digest store window limit cursor = (ordersOf part.rows, dealsIn part.rows,
      part.next.map (historyCursor digest window.accountId window.fromMs window.toMs)) := by
  intro part
  have hrows : part = cut HistoryRow.place limit _ := rfl
  unfold readHistoryPage
  generalize after (lt collation) HistoryRow.place (window.rows collation store) cursor = rest at hrows
  rw [splitPage_eq, Nat.sub_zero, Nat.sub_zero, take_take, Nat.min_eq_left (Nat.le_succ limit), hrows]
  unfold cut
  have hmore : (decide ((rest.take (limit + 1)).length > limit) && decide (0 < limit)) = decide (limit < rest.length) := by
    rw [length_take, decide_eq_true hlimit, Bool.and_true]
    exact decide_eq_decide.mpr (by omega)
  rw [hmore]
  by_cases h : limit < rest.length
  · rw [if_pos (decide_eq_true h), if_pos h, getElem?_take_of_lt (by omega), Option.map_map]
    rfl
  · rw [if_neg (by simpa using h), if_neg h]
    rfl

def answerOf (digest : Digest) (store : HistoryStore) (window : HistoryWindow) (part : Paging.Cut HistoryRow Place) :
    HistoryAnswer :=
  ⟨window.accountId, ordersOf part.rows, dealsIn part.rows, coverageObjects store window,
    part.next.map (historyCursor digest window.accountId window.fromMs window.toMs)⟩

theorem readHistory_at {settings : Settings} {adminToken : String} {s : World} {query : HistoryQuery} {first : HistoryAnswer}
    (hfs : readHistory settings collation digest adminToken s store { query with cursor := none } = .ok first)
    {place : Option Place} (hpl : ∀ p, place = some p → p.Stored) :
    readHistory settings collation digest adminToken s store { query with
        cursor := place.map (historyCursor digest query.window.accountId query.window.fromMs query.window.toMs) }
      = .ok (answerOf digest store query.window (Paging.cut HistoryRow.place query.limit.toNat
          (Paging.after (Place.lt collation) HistoryRow.place (query.window.rows collation store) place))) := by
  obtain ⟨hadmin, hfs⟩ := unit_bind_ok.mp hfs
  obtain ⟨hwindow, hfs⟩ := unit_bind_ok.mp hfs
  obtain ⟨hexists, -⟩ := unit_bind_ok.mp hfs
  have hlimit : 0 < query.limit.toNat := by
    have hchecks := hwindow
    rw [refuseIf_ok] at hchecks
    simp only [or_eq_false_iff, not_eq_false', and_eq_true, decide_eq_true_eq] at hchecks
    omega
  have hdecode : decodeHistoryCursor digest
      (place.map (historyCursor digest query.window.accountId query.window.fromMs query.window.toMs))
      query.window.accountId query.window.fromMs query.window.toMs = .ok place := by
    cases place with
    | none => rfl
    | some p => exact decode_issued (hpl p rfl)
  refine unit_bind_ok.mpr ⟨hadmin, unit_bind_ok.mpr ⟨hwindow, bind_ok.mpr ⟨place, hdecode, unit_bind_ok.mpr ⟨hexists, ?_⟩⟩⟩⟩
  rw [readHistoryPage_eq _ hlimit]
  rfl

/-! ## All pages -/

section
variable (settings : Settings) (collation : Collation) (digest : Digest) (adminToken : String) (worlds : Nat → World)
  (store : HistoryStore) (query : HistoryQuery)

def historyPages (fuel : Nat) : Option (List HistoryAnswer) :=
  Paging.follow
    (fun n cursor => (readHistory settings collation digest adminToken (worlds n) store { query with cursor }).toOption)
    HistoryAnswer.nextCursor fuel 0 none

/-- **A history is read exactly.** Where a query is answered at all, following its cursors ends, and cuts the orders
and deals of the window, strictly ordered by time, family and ticket, into pages of which all but the last have exactly
`limit` rows. A cursor is read back as the place of the last row of its page, and refused for another account or window,
as long as the digest tells apart what is signed. -/
theorem history_paged
    (hanswered : ∀ n, ∃ first, readHistory settings collation digest adminToken (worlds n) store { query with cursor := none }
      = .ok first) :
    ∃ parts : List (Paging.Cut HistoryRow Place), (parts.flatMap Paging.Cut.rows).Perm
        (store.orders.rows.filterMap query.window.orderRow? ++ store.deals.rows.filterMap query.window.dealRow?) ∧
      ((parts.flatMap Paging.Cut.rows).Pairwise fun a b => a.place.lt collation b.place = true) ∧
      (∀ part ∈ parts, (part.rows.length : Int) ≤ query.limit) ∧
      (∀ part ∈ parts.dropLast, (part.rows.length : Int) = query.limit) ∧
      (∀ fuel, (parts.flatMap Paging.Cut.rows).length < fuel →
        historyPages settings collation digest adminToken worlds store query fuel
          = some (parts.map (answerOf digest store query.window))) ∧
      ∀ part ∈ parts, ∀ cursor, (answerOf digest store query.window part).nextCursor = some cursor →
        ∃ last, part.rows.getLast? = some last ∧
          decodeHistoryCursor digest (some cursor) query.window.accountId query.window.fromMs query.window.toMs
            = .ok (some last.place) ∧
          ∀ accountId fromMs toMs, (accountId, fromMs, toMs) ≠ (query.window.accountId, query.window.fromMs, query.window.toMs) →
            (digest.hex (signedText accountId fromMs toMs last.place)
                = digest.hex (signedText query.window.accountId query.window.fromMs query.window.toMs last.place) →
              signedText accountId fromMs toMs last.place
                = signedText query.window.accountId query.window.fromMs query.window.toMs last.place) →
            decodeHistoryCursor digest (some cursor) accountId fromMs toMs
              = .error (invalidSnapshot "history cursor is invalid") := by
  have hlimit : 0 < query.limit := by
    obtain ⟨first, hfs⟩ := hanswered 0
    obtain ⟨-, hfs⟩ := unit_bind_ok.mp hfs
    obtain ⟨hchecks, -⟩ := unit_bind_ok.mp hfs
    rw [refuseIf_ok] at hchecks
    simp only [or_eq_false_iff, not_eq_false', and_eq_true, decide_eq_true_eq] at hchecks
    omega
  -- whenever a page is asked for, it is cut from the same sorted rows
  obtain ⟨parts, hrows, hle, hfull, hlast, hfollow⟩ := follow_cuts
    (fun n cursor => (readHistory settings collation digest adminToken (worlds n) store { query with cursor }).toOption)
    HistoryAnswer.nextCursor (answerOf digest store query.window)
    (historyCursor digest query.window.accountId query.window.fromMs query.window.toMs)
    query.limit.toNat (query.window.rows collation store)
    lt_asymm (query.window.rows_sorted collation store) (by omega) (fun _ => rfl) (by
      intro n place hpl
      obtain ⟨first, hfs⟩ := hanswered n
      rw [readHistory_at hfs fun p hp => ?_]
      · rfl
      · obtain ⟨row, hrow, rfl⟩ := hpl p hp
        exact stored_places query.times hrow)
  refine ⟨parts, ?_, ?_, ?_, ?_, ?_, ?_⟩
  · rw [hrows]
    exact query.window.rows_perm collation store
  · rw [hrows]
    exact query.window.rows_sorted collation store
  · intro part hpart
    have := hle part hpart
    omega
  · intro part hpart
    have := hfull part hpart
    omega
  · intro fuel hfuel
    rw [hrows] at hfuel
    exact hfollow fuel 0 hfuel
  · intro part hpart cursor hcsr
    obtain ⟨place, hnext, rfl⟩ := Option.map_eq_some_iff.mp hcsr
    obtain ⟨last, hmem, rfl⟩ := Option.map_eq_some_iff.mp (hlast part hpart place hnext)
    have hstrd : last.place.Stored := by
      have hrow : last ∈ query.window.rows collation store := by
        rw [← hrows]
        exact mem_flatMap.mpr ⟨part, hpart, mem_of_getLast? hmem⟩
      exact stored_places query.times hrow
    exact ⟨last, hmem, decode_issued hstrd, fun accountId fromMs toMs hoth hcollision =>
      decode_elsewhere hstrd hoth hcollision⟩

end

def codePoints : Collation where
  le a b := decide (a ≤ b)
  total a b := by simpa using le_total a b
  trans a b c hab hbc := by simpa using le_trans (of_decide_eq_true hab) (of_decide_eq_true hbc)
  antisymm a b hab hba := le_antisymm (of_decide_eq_true hab) (of_decide_eq_true hba)

/-- SHA-256, at the one text that is signed in the example. -/
def oneDigest : Digest where
  hex text :=
    if text = "a1|1000|5000|orders_history|2000|77" then "5280699ed99a3aa5ee461fdd5e74916bd6dfa840d068fda528b506aa99e74aff"
    else "0000000000000000000000000000000000000000000000000000000000000000"
  length text := by split <;> decide
  digits text := by split <;> decide

/-- Two deals and an order, a deal and the order at one time, and a deal beyond the window. -/
def threeEvents : HistoryStore where
  orders := ⟨[⟨"u1", "a1", "77", some 1500000, some 2000000, "buy", 1, 9000000⟩], by decide, by decide⟩
  deals := ⟨[⟨"u1", "a1", "9", 3000000, "out", 1, 9000000⟩, ⟨"u1", "a1", "8", 2000000, "in", 1, 9000000⟩,
    ⟨"u1", "a1", "10", 5000000, "in", 1, 9000000⟩], by decide, by decide⟩
  coverage := []

def plainSettings : Settings := ⟨none, "admin", fun _ => [], fun _ => false⟩

theorem history_paged_threeEvents : ∃ parts : List (Paging.Cut HistoryRow Place),
    (parts.flatMap Paging.Cut.rows).length = 3 ∧ (∀ part ∈ parts.dropLast, part.rows.length = 2) ∧
      historyPages plainSettings codePoints oneDigest "admin" (fun _ => leasedWorld) threeEvents
        ⟨⟨"u1", "a1", 1000, 5000⟩, 2, none, by decide⟩ 4
      = some (parts.map (answerOf oneDigest threeEvents ⟨"u1", "a1", 1000, 5000⟩)) := by
  have hsome : (readHistory plainSettings codePoints oneDigest "admin" leasedWorld threeEvents
      ⟨⟨"u1", "a1", 1000, 5000⟩, 2, none, by decide⟩).toOption.isSome = true := by
    decide +kernel
  obtain ⟨first, hread⟩ := Option.isSome_iff_exists.mp hsome
  obtain ⟨parts, hperm, -, -, hfull, hfollow, -⟩ := history_paged plainSettings codePoints oneDigest "admin" (fun _ => leasedWorld)
    threeEvents ⟨⟨"u1", "a1", 1000, 5000⟩, 2, none, by decide⟩ (fun _ => ⟨first, Fallible.toOption_some hread⟩)
  have hlng : (parts.flatMap Paging.Cut.rows).length = 3 := hperm.length_eq
  refine ⟨parts, hlng, fun part hpart => ?_, hfollow 4 (by omega)⟩
  have htwo := hfull part hpart
  exact Int.ofNat_inj.mp htwo

end MarketLens.Mt5Vm
