import NexusTrade.MatchingEngine.FillOrKill

/-!
# Refused orders

`submit` has nine exits whose report says that the order was rejected or has expired.  Five come before
anything is written, two leave the matching loop without a fill, and the one that expires an order after the
loop is never taken: the check of a fill-or-kill order has counted enough, and nothing of the same user has
stood in its way.

* **`Executed.not_expired`**: an order that went through the loop has not expired;
* **`Executed.refused`**: an order that the loop refuses has traded nothing;
* **`refused_leaves_orders`**: a refused order leaves the orders of every book that a run reaches.
-/

namespace NexusTrade.MatchingEngine

section Execution

variable {uuid : UuidSource} {book book' : OrderBook} {o : Order} {report : ExecutionReport}

/-- **No order expires after the loop.** -/
theorem Executed.not_expired (hx : Executed uuid book o report book') (hinv : Inv book) (ha : Admissible book o)
    (hfok : o.kind = .fok → o.remainingQuantity ≤ book.availableCrossingQuantity o) :
    report.status ≠ .expired := by
  have hsum := executed_quantity hx hinv ha
  cases hx with
  | blocked t trades inv blocked =>
      show (if t.fills.isEmpty then OrderStatus.rejected else .partiallyFilled) ≠ .expired
      split <;> exact OrderStatus.noConfusion
  | finished t trades inv exhausted st settled hsettled =>
      cases hsettled with
      | filled _ => exact OrderStatus.noConfusion
      | dropped _ _ =>
          show (if t.fills.isEmpty then OrderStatus.rejected else .partiallyFilled) ≠ .expired
          split <;> exact OrderStatus.noConfusion
      | expired hleft hkind =>
          -- what is left was not reached, but the check has counted no more than can be reached
          have hkind' : o.kind = .fok := (trades_kind trades).symm.trans hkind
          have hadd := fills_add_left trades
          have hcounted := available_le_reach hinv (not_stopsAtOwn_of_exhausted hinv ha trades exhausted hleft)
          have hpos : 0 < t.incoming.remainingQuantity := lt_of_le_of_ne inv.nonneg (Ne.symm hleft)
          have hsum : (t.fills.map Fill.quantity).sum = min o.remainingQuantity (book.reach o) := hsum
          rw [min_eq_left ((hfok hkind').trans hcounted)] at hsum
          linarith
      | rested _ _ _ _ =>
          show (if t.fills.isEmpty then OrderStatus.new else .partiallyFilled) ≠ .expired
          split <;> exact OrderStatus.noConfusion

/-- **An order that the loop refuses** has traded nothing and rests nowhere. -/
theorem Executed.refused (hx : Executed uuid book o report book')
    (hrefused : report.status = .rejected ∨ report.accepted = false) :
    report.fills = [] ∧ SameOrders book book' := by
  cases hx with
  | blocked t trades inv blocked =>
      have hfills : t.fills = [] := by
        cases hempty : t.fills with
        | nil => rfl
        | cons f fs =>
            have hreport : (OrderBook.selfTradeExit t).1.status = .partiallyFilled ∧
                (OrderBook.selfTradeExit t).1.accepted = true := by
              rw [OrderBook.selfTradeExit, hempty]
              exact ⟨rfl, rfl⟩
            rw [hreport.1, hreport.2] at hrefused
            rcases hrefused with h | h <;> cases h
      refine ⟨hfills, ?_⟩
      rw [trades_nothing trades hfills]
      exact .of_levels (fun side => by cases side <;> rfl) rfl rfl
  | finished t trades inv exhausted st settled hsettled =>
      have hrejected : st = .rejected := hrefused.resolve_right fun h => by cases h
      obtain ⟨hfills, hsettled⟩ : t.fills = [] ∧ settled = t.book := by
        cases hsettled with
        | filled _ => cases hrejected
        | dropped _ _ =>
            refine ⟨?_, rfl⟩
            split at hrejected
            · exact List.isEmpty_iff.mp ‹_›
            · cases hrejected
        | expired _ _ => cases hrejected
        | rested _ _ _ _ => split at hrejected <;> cases hrejected
      rw [hsettled]
      exact ⟨hfills, .of_trades trades hfills _ _ _⟩

end Execution

/-- **A refused order leaves the book untouched**: if it was rejected, has expired or was not accepted, there is
no fill and every order is where it was; and it expires only where the check before the loop finds too little. -/
theorem refused_leaves_orders {ops : List BookOp} {replies : List BookReply} {book : OrderBook}
    (hrun : bookRun ops = .ok (replies, book)) (uuid : UuidSource) (o : Order) :
    ∃ report book', book.submit uuid o = .ok (report, book') ∧
      ((report.status = .rejected ∨ report.status = .expired ∨ report.accepted = false) →
        report.fills = [] ∧ SameOrders book book') ∧
      (report.status = .expired → o.kind = .fok ∧
        book.availableCrossingQuantity o < o.remainingQuantity ∧ book' = book) := by
  have hinv : Inv book := (bookRun_origins hrun).1
  obtain ⟨report, book', hsubmit, _, hx⟩ := submit_spec uuid hinv o
  refine ⟨report, book', hsubmit, ?_⟩
  cases hx with
  | refused reason why => exact ⟨fun _ => ⟨rfl, .refl book⟩, fun h => by cases h⟩
  | held _ _ _ =>
      refine ⟨fun hrefused => ?_, fun h => by cases h⟩
      rcases hrefused with h | h | h <;> cases h
  | killed _ hkind hshort => exact ⟨fun _ => ⟨rfl, .refl book⟩, fun _ => ⟨hkind, hshort, rfl⟩⟩
  | executed ha hkind hpost hfok report book' result =>
      have halive := result.not_expired hinv ha hfok
      refine ⟨fun hrefused => result.refused ?_, fun h => absurd h halive⟩
      rcases hrefused with h | h | h
      · exact Or.inl h
      · exact absurd h halive
      · exact Or.inr h

theorem refused_leaves_orders_killed :
    ∃ replies book, bookRun ownOfferBetween = .ok (replies, book) ∧
      ∃ report book', book.submit (fun _ => "trade-4") (fokBuy 3) = .ok (report, book') ∧
        report.status = .expired ∧ report.fills = [] ∧ SameOrders book book' := by
  obtain ⟨replies, book, hrun, _⟩ := bookRun_spec ownOfferBetween
  have hbook : (bookRun ownOfferBetween).bind (fun r => (r.2.submit (fun _ => "trade-4") (fokBuy 3)).map fun p =>
      p.1.status) = .ok .expired := by decide +kernel
  obtain ⟨report, book', hsubmit, huntouched, _⟩ := refused_leaves_orders hrun (fun _ => "trade-4") (fokBuy 3)
  rw [hrun, Except.bind, hsubmit] at hbook
  have hstatus : report.status = .expired := Except.ok.inj hbook
  obtain ⟨hfills, hsame⟩ := huntouched (Or.inr (Or.inl hstatus))
  exact ⟨replies, book, hrun, report, book', hsubmit, hstatus, hfills, hsame⟩

end NexusTrade.MatchingEngine
