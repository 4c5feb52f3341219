import LineraEndToEnd.Morpho.Book

/-!
# The log

The events of the lending contract are what is known of it outside: they tell every
write of the storage but the time of a market's last update. A reader who replays them
has the storage.

* `Storage.book` — the book of a market; `Storage.move` — a move of it.
* `Event.move` — the move that an event tells of; `Event.moves` — those of one market;
  `Storage.replay` — what a reader takes an event for.
* `Storage.published` — the part of the storage that the events tell.
* `published_of_book` — a move of the contract, seen by the reader.
-/

namespace LineraEndToEnd.Morpho

open Solidity
open Function (update)

-- ---------------------------------------------------------------------------
-- Books of the storage
-- ---------------------------------------------------------------------------

namespace Storage

/-- The book of a market. -/
def book (s : Storage) (id : Id) : Book := ⟨s.market id, s.position id⟩

variable (s : Storage) (id : Id)

@[simp] theorem book_market : (s.book id).market = s.market id := rfl

@[simp] theorem book_position : (s.book id).position = s.position id := rfl

@[simp] theorem setMarket_market (m : Market) : (s.setMarket id m).market id = m :=
  Function.update_self ..

@[simp] theorem setMarket_position (m : Market) : (s.setMarket id m).position = s.position := rfl

@[simp] theorem setPosition_market (a : Address) (pos : Position) :
    (s.setPosition id a pos).market = s.market := rfl

@[simp] theorem setPosition_position (a : Address) (pos : Position) :
    (s.setPosition id a pos).position id = update (s.position id) a pos :=
  Function.update_self ..

@[simp] theorem emit_book (e : Event) : (s.emit e).book = s.book := rfl

@[simp] theorem setMarket_book (m : Market) :
    (s.setMarket id m).book id = { s.book id with market := m } := by
  simp [book]

@[simp] theorem setPosition_book (a : Address) (pos : Position) :
    (s.setPosition id a pos).book id = (s.book id).setPosition a pos := by
  simp [book, Book.setPosition]

theorem setMarket_book_of_ne (m : Market) {id' : Id} (h : id' ≠ id) :
    (s.setMarket id m).book id' = s.book id' := by
  simp [book, setMarket, h]

theorem setPosition_book_of_ne (a : Address) (pos : Position) {id' : Id} (h : id' ≠ id) :
    (s.setPosition id a pos).book id' = s.book id' := by
  simp [book, setPosition, h]

@[simp] theorem setMarket_self : s.setMarket id (s.market id) = s := by
  simp [setMarket]

@[simp] theorem setPosition_self (a : Address) : s.setPosition id a (s.position id a) = s := by
  simp [setPosition]

end Storage

-- ---------------------------------------------------------------------------
-- What an event tells
-- ---------------------------------------------------------------------------

/-- The move that an event tells of, and its market. The fee of an accrual goes to the fee
recipient; the fee itself and the time are not told. -/
def Event.move (feeRecipient : Address) : Event → Option (Id × Move)
  | .SetFee id newFee => some (id, .setFee newFee)
  | .Supply id _ onBehalf assets shares => some (id, .supply onBehalf assets shares)
  | .Withdraw id _ onBehalf _ assets shares => some (id, .withdraw onBehalf assets shares)
  | .Borrow id _ onBehalf _ assets shares => some (id, .borrow onBehalf assets shares)
  | .Repay id _ onBehalf assets shares => some (id, .repay onBehalf assets shares)
  | .SupplyCollateral id _ onBehalf assets => some (id, .supplyCollateral onBehalf assets)
  | .WithdrawCollateral id _ onBehalf _ assets => some (id, .withdrawCollateral onBehalf assets)
  | .Liquidate id _ borrower repaidAssets repaidShares seizedAssets badDebtAssets badDebtShares =>
    some (id, .liquidate borrower
      ⟨repaidAssets, repaidShares, seizedAssets, badDebtAssets, badDebtShares⟩)
  | .AccrueInterest id _ interest feeShares =>
    some (id, .accrue feeRecipient ⟨interest, 0, feeShares, 0⟩)
  | _ => none

/-- A move as far as it is told. -/
def Move.published : Move → Move
  | .create _ => .create 0
  | .accrue a c => .accrue a { c with feeAmount := 0, lastUpdate := 0 }
  | m => m

/-- What is told of a move: nothing if it changes no amount, and of an accrual not to whom the
fee goes. -/
def Move.told : Move → Option Move
  | .create _ => none
  | .accrue _ c =>
    if c.interest = 0 ∧ c.feeShares = 0 then none
    else some (.accrue (.ofNat 0) ⟨c.interest, 0, c.feeShares, 0⟩)
  | m => some m

/-- What an event tells of a market. -/
def Event.tells (id : Id) (e : Event) : Option Move :=
  match e.move (.ofNat 0) with
  | some (id', m) => if id' = id then m.told else none
  | none => none

/-- The moves of a market that some events tell, in their order. -/
def Event.moves (id : Id) (es : List Event) : List Move := es.filterMap (Event.tells id)

theorem Event.moves_append (id : Id) (es es' : List Event) :
    Event.moves id (es ++ es') = Event.moves id es ++ Event.moves id es' :=
  List.filterMap_append

theorem Move.writesOff.told {m : Move} (h : m.writesOff) : m.told = some m := by
  cases m with
  | liquidate b l => rfl
  | _ => exact h.elim

theorem Move.raisesDebtOf.told {m : Move} {a : Address} (h : m.raisesDebtOf a) :
    ∃ m', m.told = some m' ∧ m'.raisesDebtOf a := by
  cases m with
  | accrue b c => exact ⟨_, if_neg fun hZero => h hZero.1, h⟩
  | borrow b assets shares => exact ⟨_, rfl, h⟩
  | _ => exact h.elim

theorem Event.tells_of_move {feeRecipient : Address} {e : Event} {id : Id} {m : Move}
    (h : e.move feeRecipient = some (id, m.published)) (id' : Id) :
    e.tells id' = if id = id' then m.told else none := by
  cases m <;> cases e <;> simp only [Event.move, Move.published, Option.some.injEq, Prod.mk.injEq,
    reduceCtorEq, and_false] at h
  all_goals
    obtain ⟨rfl, h⟩ := h
    cases h
    rfl

namespace Storage

/-- One move in a market. -/
def move (s : Storage) (id : Id) (m : Move) : Storage :=
  { s with
    market := update s.market id ((s.book id).after m).market
    position := update s.position id ((s.book id).after m).position }

/-- What a reader of the log takes an event for. -/
def replay (s : Storage) (e : Event) : Storage :=
  match e with
  | .SetOwner newOwner => { s with owner := newOwner }
  | .SetFeeRecipient newFeeRecipient => { s with feeRecipient := newFeeRecipient }
  | .EnableIrm irm => { s with isIrmEnabled := update s.isIrmEnabled irm true }
  | .EnableLltv lltv => { s with isLltvEnabled := update s.isLltvEnabled lltv true }
  | .CreateMarket id p => { s with idToMarketParams := update s.idToMarketParams id p }
  | .SetAuthorization _ authorizer authorized newIsAuthorized =>
    s.authorize authorizer authorized newIsAuthorized
  | .IncrementNonce _ authorizer usedNonce =>
    { s with nonce := update s.nonce authorizer (usedNonce + 1) }
  | e =>
    match e.move s.feeRecipient with
    | some (id, m) => s.move id m
    | none => s

/-- The storage without the times and the log. -/
def published (s : Storage) : Storage :=
  { s with market := fun id => { s.market id with lastUpdate := 0 }, logs := [] }

variable {s s' : Storage} {id : Id} {m : Move} {e : Event}

theorem replay_of_move (h : e.move s.feeRecipient = some (id, m)) : s.replay e = s.move id m := by
  cases e <;> simp only [Event.move, Option.some.injEq, Prod.mk.injEq, reduceCtorEq] at h
  all_goals
    obtain ⟨rfl, rfl⟩ := h
    rfl

/-- A book as far as it is told, after a move. -/
theorem after_published (b : Book) (m : Move) :
    ({ b with market := { b.market with lastUpdate := 0 } } : Book).after m.published =
      { b.after m with market := { (b.after m).market with lastUpdate := 0 } } := by
  cases m <;> rfl

/-- One move, seen by a reader of the log. -/
theorem published_of_book (hBook : s'.book id = (s.book id).after m)
    (hOthers : ∀ id', id' ≠ id → s'.book id' = s.book id')
    (hFrame : s' = { s with position := s'.position, market := s'.market, logs := s'.logs }) :
    s.published.move id m.published = s'.published := by
  have hMarket : s'.market = update s.market id ((s.book id).after m).market := by
    funext id'
    by_cases hId : id' = id
    · subst hId
      rw [Function.update_self, ← hBook, book_market]
    · rw [Function.update_of_ne hId, ← book_market, hOthers id' hId, book_market]
  have hPosition : s'.position = update s.position id ((s.book id).after m).position := by
    funext id'
    by_cases hId : id' = id
    · subst hId
      rw [Function.update_self, ← hBook, book_position]
    · rw [Function.update_of_ne hId, ← book_position, hOthers id' hId, book_position]
  have hAfter : (s.published.book id).after m.published = _ := after_published (s.book id) m
  rw [hFrame]
  refine Storage.ext rfl rfl ?_ ?_ rfl rfl rfl rfl rfl rfl
  · show update s.position id ((s.published.book id).after m.published).position = s'.position
    rw [hPosition, hAfter]
  · show update s.published.market id ((s.published.book id).after m.published).market =
      fun id' => { s'.market id' with lastUpdate := 0 }
    rw [hMarket, hAfter]
    funext id'
    by_cases hId : id' = id
    · subst hId
      rw [Function.update_self, Function.update_self]
    · rw [Function.update_of_ne hId, Function.update_of_ne hId]
      rfl

end Storage

-- ---------------------------------------------------------------------------
-- The events of some moves
-- ---------------------------------------------------------------------------

/-- The events of some moves in a market: a reader comes to the same storage by them, and they
tell the moves, in their order, and nothing of any other market. -/
structure Tells (s s' : Storage) (id : Id) (ms : List Move) (es : List Event) : Prop where
  logs : s'.logs = s.logs ++ es
  replayed : es.foldl Storage.replay s.published = s'.published
  told : Event.moves id es = ms.filterMap Move.told
  own : ∀ e ∈ es, ∃ m, e.move s.feeRecipient = some (id, Move.published m)

namespace Tells

variable {s s' s₁ : Storage} {id : Id} {m : Move} {ms ms' : List Move} {e : Event}
  {es es' : List Event}

theorem refl (s : Storage) (id : Id) : Tells s s id [] [] where
  logs := (List.append_nil _).symm
  replayed := rfl
  told := rfl
  own := by simp

theorem trans (h : Tells s s₁ id ms es) (h' : Tells s₁ s' id ms' es')
    (hRecipient : s₁.feeRecipient = s.feeRecipient) :
    Tells s s' id (ms ++ ms') (es ++ es') where
  logs := by rw [h'.logs, h.logs, List.append_assoc]
  replayed := by rw [List.foldl_append, h.replayed, h'.replayed]
  told := by rw [Event.moves_append, List.filterMap_append, h.told, h'.told]
  own := by
    intro e he
    obtain he | he := List.mem_append.mp he
    · exact h.own e he
    · exact hRecipient ▸ h'.own e he

/-- One move, told by one event. -/
theorem of_book (hEvent : e.move s.feeRecipient = some (id, m.published))
    (hBook : s'.book id = (s.book id).after m)
    (hOthers : ∀ id', id' ≠ id → s'.book id' = s.book id')
    (hFrame : s' = { s with position := s'.position, market := s'.market, logs := s.logs ++ [e] }) :
    Tells s s' id [m] [e] where
  logs := congrArg Storage.logs hFrame
  replayed := by
    have hReplay : s.published.replay e = s.published.move id m.published :=
      Storage.replay_of_move hEvent
    have hLogs : s'.logs = s.logs ++ [e] := congrArg Storage.logs hFrame
    exact hReplay.trans (Storage.published_of_book hBook hOthers (hLogs ▸ hFrame))
  told := by
    have hTells := Event.tells_of_move hEvent id
    rw [if_pos rfl] at hTells
    unfold Event.moves
    rw [List.filterMap_cons, List.filterMap_cons, hTells]
    rfl
  own := by
    intro e' he'
    rw [List.mem_singleton.mp he']
    exact ⟨m, hEvent⟩

/-- Nothing is told of another market. -/
theorem others (h : Tells s s' id ms es) {id' : Id} (hne : id' ≠ id) :
    Event.moves id' es = [] := by
  refine List.filterMap_eq_nil_iff.mpr fun e he => ?_
  obtain ⟨m, hMove⟩ := h.own e he
  rw [Event.tells_of_move hMove id', if_neg hne.symm]

end Tells

end LineraEndToEnd.Morpho
