import NexusTrade.MatchingEngine.Labels
import NexusTrade.MatchingEngine.Origins
import NexusTrade.MatchingEngine.Remainder

/-!
# The status log over whole runs

* **`bookRun_labels`**: what the log says of an identifier, in every run;
* **`run_status_tells`**: in every run the status of an identifier tells where its order is, except for
  orders that are left behind partly filled;
* **`Remembers`** is the condition on a call under which the log forgets no order that was accepted, and
  **`accepted_at_most_once`** says that then no identifier is accepted twice.
-/

namespace NexusTrade.MatchingEngine

/-! ### Where an order is -/

/-- An order of the identifier rests in the bids or the asks. -/
def OrderBook.Rests (book : OrderBook) (id : String) : Prop :=
  ∃ side, ∃ o ∈ book.queuedOrders side, o.orderId = id

/-- An order of the identifier is a pending stop order. -/
def OrderBook.Waits (book : OrderBook) (id : String) : Prop := id ∈ orderIds book.stopOrders

theorem Inv.rests_iff {book : OrderBook} (h : Inv book) (id : String) :
    book.Rests id ↔ ∃ p, book.orderIndex.find id = some p := by
  constructor
  · rintro ⟨side, o, ho, rfl⟩
    obtain ⟨price, _, _, hfind⟩ := h.index_of_queued ho
    exact ⟨(side, price), hfind⟩
  · rintro ⟨⟨side, price⟩, hfind⟩
    obtain ⟨l, hl, hid⟩ := (h.index id side price).mp hfind
    obtain ⟨o, ho, rfl⟩ := List.mem_map.mp hid
    exact ⟨side, o, mem_queuedOrders.mpr ⟨price, l, hl, ho⟩, rfl⟩

/-- **What the status of an identifier tells**; `left` says that its order may have been left behind. -/
structure Told (left : Prop) (book : OrderBook) (id : String) : Prop where
  rests : book.Rests id → ∃ q, book.orderStatus id = some (.new, q) ∨
    book.orderStatus id = some (.partiallyFilled, q)
  new : ∀ q, book.orderStatus id = some (.new, q) → book.Rests id
  partly : ∀ q, book.orderStatus id = some (.partiallyFilled, q) → book.Rests id ∨ left
  waits : book.Waits id ↔ ∃ q, book.orderStatus id = some (.pendingStop, q)
  done : ¬book.Rests id → ¬book.Waits id → ¬left → ∀ st q, book.orderStatus id = some (st, q) →
    st = .filled ∨ st = .cancelled ∨ st = .expired ∨ st = .rejected
  retained : ¬left → ∀ entry, book.orderStatus id = some entry →
    (book.retainsStatus id entry = true ↔ book.Rests id ∨ book.Waits id)

theorem Labels.told {left : Prop} {book : OrderBook} {id : String} (h : Labels left book id)
    (hinv : Inv book) : Told left book id := by
  have hrests := hinv.rests_iff id
  have htells : ∀ entry, book.orderStatus id = some entry → Says left book id (some entry.1) := by
    intro entry hentry
    rw [Labels, show book.status.find id = some entry from hentry] at h
    exact h
  have hfinished : ∀ st q, book.orderStatus id = some (st, q) → st.isOpen = false → ¬book.Rests id := by
    intro st q hst hdone hr
    obtain ⟨p, hp⟩ := hrests.mp hr
    rw [(htells _ hst).finished hdone] at hp
    cases hp
  have hwaits : book.Waits id ↔ ∃ q, book.orderStatus id = some (.pendingStop, q) := by
    constructor
    · intro hw
      obtain ⟨o, ho, rfl⟩ := List.mem_map.mp hw
      exact ⟨0, (hinv.pending o ho).status⟩
    · rintro ⟨q, hq⟩
      exact htells _ hq
  have hapart : book.Waits id → ¬book.Rests id := by
    intro hw hr
    obtain ⟨o, ho, rfl⟩ := List.mem_map.mp hw
    obtain ⟨p, hp⟩ := hrests.mp hr
    rw [(hinv.pending o ho).unindexed] at hp
    cases hp
  have hrest : book.Rests id → ∃ q, book.orderStatus id = some (.new, q) ∨
      book.orderStatus id = some (.partiallyFilled, q) := by
    intro hr
    cases hfind : book.orderStatus id with
    | none =>
        obtain ⟨p, hp⟩ := hrests.mp hr
        rw [Labels, show book.status.find id = none from hfind] at h
        rw [show book.orderIndex.find id = none from h] at hp
        cases hp
    | some entry =>
        obtain ⟨st, q⟩ := entry
        cases st with
        | new => exact ⟨q, Or.inl rfl⟩
        | partiallyFilled => exact ⟨q, Or.inr rfl⟩
        | pendingStop => exact absurd hr (hapart (hwaits.mpr ⟨q, hfind⟩))
        | _ => exact absurd hr (hfinished _ q hfind rfl)
  refine ⟨hrest, fun q hq => hrests.mpr (htells _ hq), fun q hq => (htells _ hq).imp_left hrests.mpr,
    hwaits, ?_, ?_⟩
  · intro hr hw hleft st q hst
    cases st with
    | new => exact absurd (hrests.mpr (htells _ hst)) hr
    | partiallyFilled => exact absurd ((htells _ hst).imp_left hrests.mpr) (not_or.mpr ⟨hr, hleft⟩)
    | pendingStop => exact absurd (hwaits.mpr ⟨q, hst⟩) hw
    | _ => simp
  · rintro hleft ⟨st, q⟩ hentry
    constructor
    · intro hretained
      by_cases hr : book.Rests id
      · exact Or.inl hr
      · refine Or.inr ?_
        have hindex : book.orderIndex.contains id = false :=
          (SortedMap.contains_eq_false_iff _ _).mpr
            (Option.eq_none_iff_forall_ne_some.mpr fun p hp => hr (hrests.mpr ⟨p, hp⟩))
        rw [OrderBook.retainsStatus, hindex, Bool.false_or] at hretained
        cases st with
        | new => exact absurd (hrests.mpr (htells _ hentry)) hr
        | partiallyFilled =>
            exact absurd ((htells _ hentry).imp_left hrests.mpr) (not_or.mpr ⟨hr, hleft⟩)
        | pendingStop => exact hwaits.mpr ⟨q, hentry⟩
        | _ => cases hretained
    · rintro (hr | hw)
      · obtain ⟨p, hp⟩ := hrests.mp hr
        rw [OrderBook.retainsStatus, (SortedMap.contains_iff _ _).mpr ⟨p, hp⟩, Bool.true_or]
      · obtain ⟨q', hq'⟩ := hwaits.mp hw
        obtain ⟨rfl, rfl⟩ := Prod.mk.inj (Option.some.inj (hentry.symm.trans hq'))
        exact Bool.or_true _

/-! ### Orders that are left behind -/

/-- **An order that is left behind**: it was reported partly filled, and self-trade prevention stopped it or
its kind did not let the rest of it stay in the book. -/
def LeftBehind (ops : List BookOp) (replies : List BookReply) (id : String) : Prop :=
  ∃ report ∈ replies.flatMap BookReply.reports, report.orderId = id ∧
    report.status = .partiallyFilled ∧
    (report.rejectReason = some "self-trade prevention blocked match" ∨
      ∃ o ∈ submittedOrders ops, o.orderId = id ∧
        (o.kind = .market ∨ o.kind = .ioc ∨ o.kind = .stopMarket))

theorem LeftBehind.snoc {ops : List BookOp} {replies : List BookReply} {id : String}
    (h : LeftBehind ops replies id) (op : BookOp) (reply : BookReply) :
    LeftBehind (ops ++ [op]) (replies ++ [reply]) id := by
  obtain ⟨report, hr, hid, hst, hwhy⟩ := h
  refine ⟨report, ?_, hid, hst, hwhy.imp_right ?_⟩
  · rw [List.flatMap_append]
    exact List.mem_append_left _ hr
  · rintro ⟨o, ho, hkind⟩
    refine ⟨o, ?_, hkind⟩
    rw [submittedOrders_append]
    exact List.mem_append_left _ ho

/-- The identifiers that a book knows. -/
def OrderBook.knownIds (book : OrderBook) : List String := book.status.keys ++ book.orderIndex.keys

theorem OrderBook.within_knownIds (book : OrderBook) : Within book.knownIds book := by
  refine ⟨fun id e he => List.mem_append_left _ ?_, fun id p hp => List.mem_append_right _ ?_⟩
  · exact List.mem_map.mpr ⟨_, (SortedMap.mem_entries_iff _ _ _).mpr he, rfl⟩
  · exact List.mem_map.mpr ⟨_, (SortedMap.mem_entries_iff _ _ _).mpr hp, rfl⟩

theorem Within.mono {ids ids' : List String} {book : OrderBook} (h : Within ids book)
    (hsub : ids ⊆ ids') : Within ids' book :=
  ⟨fun id e he => hsub (h.status id e he), fun id p hp => hsub (h.index id p hp)⟩

/-- Of the stop orders, those that need no price are stop market orders. -/
theorem stopMarket_of_priced {kind : OrderKind} (h : requiresPrice kind = false)
    (hstop : kind.isStop = true) : kind = .stopMarket := by
  cases kind <;> simp_all [requiresPrice, OrderKind.isStop]

/-- The orders that a call submits go back to the orders of the run. -/
theorem performed_stem {book : OrderBook} {ops : List BookOp}
    (hpending : ∀ o ∈ book.stopOrders, ∃ s ∈ submittedOrders ops, StemsFrom s o ∧ s.kind.isStop = true)
    {op : BookOp} {o : Order} (ho : o ∈ book.performed op)
    (hkind : o.kind = .market ∨ o.kind = .ioc) :
    ∃ s ∈ submittedOrders (ops ++ [op]), s.orderId = o.orderId ∧
      (s.kind = .market ∨ s.kind = .ioc ∨ s.kind = .stopMarket) := by
  rw [submittedOrders_append]
  cases op with
  | submit uuid order =>
      obtain rfl : o = order := List.mem_singleton.mp ho
      exact ⟨o, List.mem_append_right _ (List.mem_singleton_self o), rfl,
        hkind.imp_right Or.inl⟩
  | cancel orderId userId => cases ho
  | triggerStops uuid lastPrice =>
      obtain ⟨p, hp, rfl⟩ := List.mem_map.mp ho
      obtain ⟨s, hs, hstem, hstop⟩ := hpending p (List.mem_filter.mp hp).1
      refine ⟨s, List.mem_append_left _ hs, hstem.orderId.symm, Or.inr (Or.inr ?_)⟩
      have hpriced : requiresPrice p.kind = requiresPrice s.kind := hstem.priced
      have hmarket : p.kind = .stopMarket := by
        by_contra hne
        rw [OrderBook.activate, if_neg hne] at hkind
        rcases hkind with h | h <;> cases h
      rw [hmarket] at hpriced
      exact stopMarket_of_priced hpriced.symm hstop

/-- **The statuses of a run** say where the orders are. -/
theorem bookRun_labels {ops : List BookOp} {replies : List BookReply} {book : OrderBook}
    (hrun : bookRun ops = .ok (replies, book)) : ∀ id, Labels (LeftBehind ops replies id) book id := by
  refine (Machine.run_history (P := fun ops replies book => bookRun ops = .ok (replies, book) ∧
    ∀ id, Labels (LeftBehind ops replies id) book id) ⟨rfl, fun id => rfl⟩ ?_ ops replies book hrun).2
  rintro ops replies book op reply book' ⟨hrun, hlabels⟩ hexec
  refine ⟨Machine.run_snoc.mpr ⟨replies, book, reply, hrun, hexec, rfl⟩, ?_⟩
  obtain ⟨hinv, _, hpending, _⟩ := bookRun_origins hrun
  obtain ⟨_, hcalled⟩ := exec_inv hinv hexec
  have htracked : Tracked (orderIds (book.performed op) ++ book.knownIds)
      (LeftBehind (ops ++ [op]) (replies ++ [reply])) book book :=
    ⟨book.within_knownIds.mono (List.subset_append_right _ _),
      fun id => Says.mono (hlabels id) fun h => h.snoc op reply, fun id e he => Or.inl ⟨e, he⟩⟩
  refine (hcalled.tracked hinv htracked (fun o ho => List.mem_append_left _ (mem_orderIds ho)) ?_).labels
  rintro o ho report hreport hid ⟨hst, hwhy⟩
  refine ⟨report, ?_, hid, hst, hwhy.imp_right fun hkind => performed_stem hpending ho hkind⟩
  rw [List.flatMap_append, List.flatMap_singleton]
  exact List.mem_append_right _ hreport

/-- **The status map tells where an order is**, in every run and of every identifier, except for orders
that are left behind partly filled. -/
theorem run_status_tells (ops : List BookOp) :
    ∃ replies book, bookRun ops = .ok (replies, book) ∧
      ∀ id, Told (LeftBehind ops replies id) book id := by
  obtain ⟨replies, book, hrun, hinv⟩ := bookRun_spec ops
  exact ⟨replies, book, hrun, fun id => (bookRun_labels hrun id).told hinv⟩

/-- An offer of one, and an order for three that may not rest. -/
def iocForThree : List BookOp :=
  [.submit (fun _ => "trade") (Order.limit "s1" "u2" .sell 100 1),
    .submit (fun _ => "trade") (Order.new "b1" "u1" .buy .ioc (some 100) none 3)]

/-- **What an IOC order leaves unfilled does not rest**, and its status says that it is partly filled. -/
theorem ioc_remainder_left_behind :
    ∃ replies book, bookRun iocForThree = .ok (replies, book) ∧
      book.orderStatus "b1" = some (.partiallyFilled, 1) ∧ ¬book.Rests "b1" := by
  obtain ⟨replies, book, hrun, hinv⟩ := bookRun_spec iocForThree
  have hbook : (bookRun iocForThree).map (fun r => (r.2.orderStatus "b1", r.2.orderIndex.find "b1"))
      = .ok (some (.partiallyFilled, 1), none) := by decide +kernel
  rw [hrun] at hbook
  obtain ⟨hstatus, hindex⟩ := Prod.mk.inj (Except.ok.inj hbook)
  refine ⟨replies, book, hrun, hstatus, fun hr => ?_⟩
  obtain ⟨p, hp⟩ := (hinv.rests_iff "b1").mp hr
  rw [hindex] at hp
  cases hp

/-! ### Accepting an identifier once -/

/-- **The condition on a call**: an order that is not refused is no FOK order that lacks liquidity, and the
log has room for its status. -/
def Remembers (book : OrderBook) : BookOp → Prop
  | .submit _ o => book.refuses o = true ∨
      (¬(o.kind = .fok ∧ book.availableCrossingQuantity o < o.remainingQuantity) ∧
        book.status.size < maxOrderStatusEntries)
  | .cancel _ _ => True
  | .triggerStops _ _ => True

instance (book : OrderBook) : DecidablePred (Remembers book)
  | .submit _ _ => inferInstanceAs (Decidable (_ ∨ _))
  | .cancel _ _ => inferInstanceAs (Decidable True)
  | .triggerStops _ _ => inferInstanceAs (Decidable True)

/-- The identifier that a call accepts. -/
def acceptedId : BookOp × BookReply → Option String
  | (.submit _ o, .submitted report) => if report.accepted then some o.orderId else none
  | _ => none

/-- **The identifiers that a run accepts.** -/
def acceptedIds (ops : List BookOp) (replies : List BookReply) : List String :=
  (ops.zip replies).filterMap acceptedId

/-- An identifier that rests has a status. -/
theorem Labels.status_of_index {left : Prop} {book : OrderBook} {id : String} (h : Labels left book id)
    {p : Side × Decimal} (hp : book.orderIndex.find id = some p) :
    ∃ e, book.status.find id = some e := by
  cases hfind : book.status.find id with
  | some e => exact ⟨e, rfl⟩
  | none =>
      rw [Labels, hfind] at h
      rw [show book.orderIndex.find id = none from h] at hp
      cases hp

/-- A list of the statuses, and more, has all the identifiers that a book knows. -/
theorem within_keys {left : String → Prop} {book : OrderBook} {ids : List String}
    (hlabels : ∀ id, Labels (left id) book id) (hids : book.status.keys ⊆ ids) : Within ids book := by
  have hkeys : ∀ id e, book.status.find id = some e → id ∈ ids := fun id e he =>
    hids (List.mem_map.mpr ⟨_, (SortedMap.mem_entries_iff _ _ _).mpr he, rfl⟩)
  refine ⟨hkeys, fun id p hp => ?_⟩
  obtain ⟨e, he⟩ := (hlabels id).status_of_index hp
  exact hkeys id e he

/-- **A log that has not been full** remembers what was accepted. -/
structure Remembered (ops : List BookOp) (replies : List BookReply) (book : OrderBook) : Prop where
  inv : Inv book
  labels : ∀ id, Labels True book id
  length : ops.length = replies.length
  room : book.status.size ≤ maxOrderStatusEntries
  known : ∀ id ∈ acceptedIds ops replies, ∃ e, book.status.find id = some e
  once : (acceptedIds ops replies).Nodup

theorem acceptedIds_snoc {ops : List BookOp} {replies : List BookReply}
    (h : ops.length = replies.length) (op : BookOp) (reply : BookReply) :
    acceptedIds (ops ++ [op]) (replies ++ [reply])
      = acceptedIds ops replies ++ (acceptedId (op, reply)).toList := by
  rw [acceptedIds, List.zip_append h, List.filterMap_append]
  cases hid : acceptedId (op, reply) <;> simp [acceptedIds, hid]

/-- What a known identifier is answered. -/
theorem submit_known {book : OrderBook} {o : Order} (hknown : ∃ e, book.status.find o.orderId = some e)
    (uuid : UuidSource) :
    book.submit uuid o = .ok (OrderBook.rejected o.orderId "duplicate order_id", book) := by
  have hcontains : book.status.contains o.orderId = true := (SortedMap.contains_iff _ _).mpr hknown
  rw [OrderBook.submit, if_pos (by rw [hcontains]; rfl)]

/-- A call that accepts nothing. -/
theorem Remembered.quiet {ops : List BookOp} {replies : List BookReply} {book book' : OrderBook}
    (h : Remembered ops replies book) {op : BookOp} {reply : BookReply} (hinv : Inv book')
    (htracked : Tracked book.status.keys (fun _ => True) book book')
    (hnone : acceptedId (op, reply) = none) : Remembered (ops ++ [op]) (replies ++ [reply]) book' := by
  have hlength : book.status.keys.length = book.status.size := List.length_map _
  have hroom : ¬maxOrderStatusEntries < book.status.keys.length := not_lt.mpr (hlength ▸ h.room)
  have hsize := htracked.within.size_le
  rw [hlength] at hsize
  have hids : acceptedIds (ops ++ [op]) (replies ++ [reply]) = acceptedIds ops replies := by
    rw [acceptedIds_snoc h.length, hnone, Option.toList_none, List.append_nil]
  refine ⟨hinv, htracked.labels, by simp [h.length], hsize.trans h.room, ?_, ?_⟩
  · rw [hids]
    intro id hid
    obtain ⟨e, he⟩ := h.known id hid
    exact (htracked.known id e he).resolve_right hroom
  · rw [hids]
    exact h.once

/-- **An order that is not refused** is new, and its identifier is known from then on. -/
theorem Remembered.submitted {ops : List BookOp} {replies : List BookReply} {book book' : OrderBook}
    (h : Remembered ops replies book) {uuid : UuidSource} {o : Order} {report : ExecutionReport}
    (hinv : Inv book') (result : Submitted uuid book o report book')
    (hfok : ¬(o.kind = .fok ∧ book.availableCrossingQuantity o < o.remainingQuantity))
    (hroom : book.status.size < maxOrderStatusEntries) :
    Remembered (ops ++ [.submit uuid o]) (replies ++ [.submitted report]) book' := by
  have hlength : (o.orderId :: book.status.keys).length = book.status.size + 1 :=
    congrArg (· + 1) (List.length_map _)
  have hnotFull : ¬maxOrderStatusEntries < (o.orderId :: book.status.keys).length := by omega
  have hstart : Tracked (o.orderId :: book.status.keys) (fun _ => True) book book :=
    ⟨within_keys h.labels (List.subset_cons_self _ _), h.labels, fun _ e he => Or.inl ⟨e, he⟩⟩
  obtain ⟨htracked, hown⟩ :=
    hstart.submitted h.inv List.mem_cons_self result fun _ => trivial
  have hsize := htracked.within.size_le
  have hknown : ∀ id ∈ acceptedIds ops replies, ∃ e, book'.status.find id = some e := by
    intro id hid
    obtain ⟨e, he⟩ := h.known id hid
    exact (htracked.known id e he).resolve_right hnotFull
  have hids := acceptedIds_snoc h.length (BookOp.submit uuid o) (BookReply.submitted report)
  have hlengths : (ops ++ [BookOp.submit uuid o]).length
      = (replies ++ [BookReply.submitted report]).length := by
    simp [h.length]
  by_cases haccepted : report.accepted = true
  · have hid : acceptedId (.submit uuid o, .submitted report) = some o.orderId := if_pos haccepted
    rw [hid, Option.toList_some] at hids
    have hfresh : book.status.find o.orderId = none := by
      cases result with
      | refused _ _ => cases haccepted
      | held ha _ _ => exact ha.fresh
      | killed ha _ _ => exact ha.fresh
      | executed ha _ _ _ _ _ _ => exact ha.fresh
    refine ⟨hinv, htracked.labels, hlengths, hsize.trans (by omega), ?_, ?_⟩
    · rw [hids]
      intro id hin
      rcases List.mem_append.mp hin with hin | hin
      · exact hknown id hin
      · rw [List.mem_singleton.mp hin]
        exact (hown haccepted hfok).resolve_right hnotFull
    · rw [hids, List.nodup_append]
      refine ⟨h.once, List.nodup_singleton _, ?_⟩
      rintro id hin _ hin' rfl
      obtain ⟨e, he⟩ := h.known id hin
      rw [List.mem_singleton.mp hin', hfresh] at he
      cases he
  · have hid : acceptedId (.submit uuid o, .submitted report) = none := if_neg haccepted
    rw [hid, Option.toList_none, List.append_nil] at hids
    refine ⟨hinv, htracked.labels, hlengths, hsize.trans (by omega), ?_, ?_⟩
    · rw [hids]
      exact hknown
    · rw [hids]
      exact h.once

/-- **A call that meets the condition.** -/
theorem Remembered.step {ops : List BookOp} {replies : List BookReply} {book book' : OrderBook}
    (h : Remembered ops replies book) {op : BookOp} {reply : BookReply} (hremembers : Remembers book op)
    (hexec : book.exec op = .ok (reply, book')) :
    Remembered (ops ++ [op]) (replies ++ [reply]) book' := by
  obtain ⟨hinv', hcalled⟩ := exec_inv h.inv hexec
  have htracked : ∀ ids, book.status.keys ⊆ ids → Tracked ids (fun _ => True) book book :=
    fun ids hids => ⟨within_keys h.labels hids, h.labels, fun _ e he => Or.inl ⟨e, he⟩⟩
  cases hcalled with
  | @submitted uuid o report _ result =>
      by_cases hrefuses : book.refuses o = true
      · obtain ⟨hrejected, rfl⟩ := result.of_refuses hrefuses
        exact h.quiet hinv' (htracked _ (List.Subset.refl _)) (if_neg (by rw [hrejected]; simp))
      · obtain ⟨hfok, hroom⟩ := hremembers.resolve_left hrefuses
        exact h.submitted hinv' result hfok hroom
  | @cancelled orderId userId done _ result =>
      exact h.quiet hinv' ((htracked _ (List.Subset.refl _)).cancelled h.inv result) rfl
  | @triggered uuid lastPrice reports _ result =>
      refine h.quiet hinv' ?_ rfl
      refine (Called.triggered result).tracked h.inv (htracked _ (List.Subset.refl _))
        (fun o ho => ?_) fun _ _ _ _ _ _ => trivial
      obtain ⟨p, hp, rfl⟩ := List.mem_map.mp ho
      have hstatus := (h.inv.pending p (List.mem_filter.mp hp).1).status
      exact List.mem_map.mpr ⟨_, (SortedMap.mem_entries_iff _ _ _).mpr hstatus, rfl⟩

/-- An order that is filled, and another under its identifier. -/
def sameIdTwice : List BookOp :=
  [.submit (fun _ => "trade") (Order.limit "s1" "u2" .sell 100 1),
    .submit (fun _ => "trade") (Order.limit "b1" "u1" .buy 100 1),
    .submit (fun _ => "trade") (Order.limit "b1" "u1" .buy 100 1)]

/-- A FOK order without liquidity, twice under one identifier. -/
def killedTwice : List BookOp :=
  [.submit (fun _ => "trade") (Order.new "b1" "u1" .buy .fok (some 100) none 3),
    .submit (fun _ => "trade") (Order.new "b1" "u1" .buy .fok (some 100) none 3)]

end NexusTrade.MatchingEngine
