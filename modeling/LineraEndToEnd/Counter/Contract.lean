import Mathlib.Data.UInt

/-!
# Counter — the contract without a `store`

`counter-no-state` in `test_has_empty_storage`: a counter whose contract writes its
state only in the operations that ask for it, since its `store` does nothing. The
state is one `RegisterView<u64>`, so the storage of the application is the key of
this register, present or not. A view is what the SDK makes it: a value read from
the storage, and a value set since then, which stays in memory until it is saved.

* `executeOperation`, `transaction` — one operation, and all operations of one
  contract instance, which is loaded before and stored after them.
* `handleQuery` — the service, which loads a state of its own.
-/

namespace LineraEndToEnd.Counter

-- ---------------------------------------------------------------------------
-- The state
-- ---------------------------------------------------------------------------

/-- `RegisterView`: the value read from the storage, and the value set since. -/
structure RegisterView (T : Type) where
  stored : T
  update : Option T

namespace RegisterView

variable {T : Type}

/-- `load`, from the key of the register. -/
def load [Inhabited T] (key : Option T) : RegisterView T :=
  { stored := key.getD default, update := none }

/-- `get`. -/
def get (v : RegisterView T) : T := v.update.getD v.stored

/-- `set`. -/
def set (v : RegisterView T) (x : T) : RegisterView T := { v with update := some x }

/-- `save`: the key is written when a value was set. -/
def save (v : RegisterView T) (key : Option T) : RegisterView T × Option T :=
  match v.update with
  | none => (v, key)
  | some x => ({ stored := x, update := none }, some x)

end RegisterView

/-- The storage of the application: the key of its register. -/
abbrev Storage := Option UInt64

/-- `has_empty_storage`. -/
def hasEmptyStorage (storage : Storage) : Bool := storage.isNone

/-- `CounterState`. -/
structure CounterState where
  value : RegisterView UInt64

-- ---------------------------------------------------------------------------
-- The contract
-- ---------------------------------------------------------------------------

/-- `CounterOperation`. -/
inductive CounterOperation where
  | increment (value : UInt64) (doSave : Bool)
  | query
deriving DecidableEq

/-- `CounterContract`. -/
structure CounterContract where
  state : CounterState

/-- `load`. -/
def CounterContract.load (storage : Storage) : CounterContract :=
  { state := { value := .load storage } }

/-- `execute_operation`: the contract, the storage and the response. -/
def executeOperation (c : CounterContract) (storage : Storage) (operation : CounterOperation) :
    CounterContract × Storage × UInt64 :=
  let (c, value, doSave) :=
    match operation with
    | .increment value doSave =>
      let newValue := c.state.value.get + value
      (({ state := { value := c.state.value.set newValue } } : CounterContract), newValue, doSave)
    | .query => (c, c.state.value.get, false)
  if doSave then
    let (view, storage) := c.state.value.save storage
    ({ state := { value := view } }, storage, value)
  else (c, storage, value)

/-- `store`, which does nothing. -/
def CounterContract.store (_ : CounterContract) (storage : Storage) : Storage := storage

/-- Operations on one contract instance, with their responses. -/
def executeOperations (c : CounterContract) (storage : Storage) :
    List CounterOperation → CounterContract × Storage × List UInt64
  | [] => (c, storage, [])
  | op :: ops =>
    let (c, storage, value) := executeOperation c storage op
    let (c, storage, values) := executeOperations c storage ops
    (c, storage, value :: values)

/-- A transaction: an instance is loaded, executes its operations and is stored. -/
def transaction (storage : Storage) (ops : List CounterOperation) : Storage × List UInt64 :=
  let (c, storage, values) := executeOperations (.load storage) storage ops
  (c.store storage, values)

/-- The storage after transactions. -/
def history (storage : Storage) (txs : List (List CounterOperation)) : Storage :=
  txs.foldl (fun storage ops => (transaction storage ops).1) storage

-- ---------------------------------------------------------------------------
-- The service
-- ---------------------------------------------------------------------------

/-- `CounterRequest`. -/
inductive CounterRequest where
  | increment (value : UInt64) (doSave : Bool)
  | query
deriving DecidableEq

/-- What the service reads from the runtime. -/
structure ServiceRuntime (ChainId : Type) where
  chainId : ChainId
  applicationCreatorChainId : ChainId

/-- The assertion of the service: "Chain ID and Application Creator Chain ID should
be equal". -/
inductive Panic where
  | notOnCreatorChain
deriving DecidableEq

/-- `handle_query`, on the state that `new` loaded: the response, and the operations
that are scheduled. -/
def handleQuery {ChainId : Type} [DecidableEq ChainId] (runtime : ServiceRuntime ChainId)
    (storage : Storage) (request : CounterRequest) :
    Except Panic (UInt64 × List CounterOperation) :=
  let state : CounterState := { value := .load storage }
  if runtime.chainId ≠ runtime.applicationCreatorChainId then .error .notOnCreatorChain
  else
    match request with
    | .query => .ok (state.value.get, [])
    | .increment value doSave => .ok (0, [.increment value doSave])

end LineraEndToEnd.Counter
