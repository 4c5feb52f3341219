import Mathlib.Data.Finset.Card
import LineraEndToEnd.Lib.Loop
import LineraEndToEnd.Lib.Run
import LineraEndToEnd.Runtime.Base

/-!
# LocalNet — log files

A server and a proxy write their log to a file of a fixed name. Before they are started,
`make_file_available` renames the file that is there: to the first free name among
`<file_name>_V1`, `<file_name>_V2` and so on. The loop counts in an `i32`, so it knows
2147483647 of these names, and no more.

* `makeFileAvailable` — the loop; `HasFreeName`: one of the names it tries is free.
* `makesAvailable_iff` — then, and only then, it ends and `MadeAvailable` holds: no file is
  under the name, its content is under the least free one, and nothing else has changed.
* `makeFileAvailable_panics` / `makeFileAvailable_diverges` — what happens otherwise.
* `Kept.of_run` — no log gets lost in a run of restarts; `logs_kept`: and all of them go
  through as long as there are free names.
* `along_of_card_le` — which is so as long as there are fewer than 2^31 files.
-/

namespace LineraEndToEnd.LocalNet

open Lib

-- ---------------------------------------------------------------------------
-- Files
-- ---------------------------------------------------------------------------

/-- The files of the working directory. -/
abbrev Files (Content : Type) := MapView String Content

/-- How a call ends that does not return `Ok`. -/
inductive Failure where
  /-- The `std::io::Error` of a file that is not there. -/
  | notFound
  /-- The panic "attempt to add with overflow". -/
  | addOverflow
deriving DecidableEq

variable {Content : Type}

/-- `std::fs::rename`. A file that is under the new name is replaced. -/
def Files.rename (files : Files Content) (old new : String) : Except Failure (Files Content) :=
  match files.lookup old with
  | none => .error .notFound
  | some content => .ok ((files.erase old).insert new content)

/-- `File::create`, with what is written to the file from then on. -/
def Files.create (files : Files Content) (name : String) (content : Content) : Files Content :=
  files.insert name content

/-- `first_free_file_attempt`. -/
def firstFreeFileAttempt (fileName : String) (iter : Int) : String :=
  if iter = 0 then fileName else fileName ++ "_V" ++ toString iter

/-- `iter += 1` for an `i32`: a build without overflow checks wraps. -/
def nextIter (overflowChecks : Bool) (iter : Int) : Option Int :=
  if iter + 1 < 2 ^ 31 then some (iter + 1)
  else if overflowChecks then none
  else some (-2 ^ 31)

/-- The body of the loop of `make_file_available`. -/
def attempt (overflowChecks : Bool) (files : Files Content) (fileName : String) (iter : Int) :
    Int ⊕ Except Failure (Files Content) :=
  let name := firstFreeFileAttempt fileName iter
  if name ∉ files then
    if fileName ≠ name then .inr (files.rename fileName name) else .inr (.ok files)
  else
    match nextIter overflowChecks iter with
    | some iter' => .inl iter'
    | none => .inr (.error .addOverflow)

/-- `make_file_available`, with a bound on the turns of its loop. -/
def makeFileAvailable (overflowChecks : Bool) (fuel : Nat) (files : Files Content)
    (fileName : String) : Option (Except Failure (Files Content)) :=
  loop (attempt overflowChecks files fileName) fuel 0

/-- One of the names that the loop tries is free: the name itself, or one of the 2147483647
names after it. -/
def HasFreeName (files : Files Content) (fileName : String) : Prop :=
  ∃ i : Nat, i < 2 ^ 31 ∧ firstFreeFileAttempt fileName i ∉ files

/-- What `make_file_available` is for. -/
structure MadeAvailable (files files' : Files Content) (fileName : String) : Prop where
  /-- No file is under the name. -/
  available : fileName ∉ files'
  /-- Every other file is there, with its content. -/
  others : ∀ name, name ≠ fileName → ∀ content, files.lookup name = some content →
    files'.lookup name = some content
  /-- The content is under the least of the names that was free, and under no other new
  name. -/
  moved : ∀ content, files.lookup fileName = some content →
    ∃ i : Nat, 1 ≤ i ∧ firstFreeFileAttempt fileName i ∉ files ∧
      (∀ j : Nat, 1 ≤ j → j < i → firstFreeFileAttempt fileName j ∈ files) ∧
      files'.lookup (firstFreeFileAttempt fileName i) = some content ∧
      ∀ name ∈ files', name ∉ files → name = firstFreeFileAttempt fileName i

/-- A call ends, and has done what it is for. -/
def MakesAvailable (overflowChecks : Bool) (files : Files Content) (fileName : String) : Prop :=
  ∃ fuel files', makeFileAvailable overflowChecks fuel files fileName = some (.ok files') ∧
    MadeAvailable files files' fileName

/-- A log: the name of its file, and what is written to it. -/
structure Log (Content : Type) where
  name : String
  content : Content

/-- A process is started again: the file of its log is made available and created. -/
def restart (overflowChecks : Bool) (fuel : Nat) (files : Files Content) (log : Log Content) :
    Option (Files Content) :=
  match makeFileAvailable overflowChecks fuel files log.name with
  | some (.ok files') => some (files'.create log.name log.content)
  | _ => none

/-- Logs are in files, under distinct names. -/
def Kept (files : Files Content) (contents : List Content) : Prop :=
  ∃ names : List String, names.Nodup ∧ names.map (files.lookup ·) = contents.map some

-- ---------------------------------------------------------------------------
-- Names
-- ---------------------------------------------------------------------------

theorem nat_repr_inj {m n : Nat} (hEq : m.repr = n.repr) : m = n := by
  have hDigits := congrArg String.toList hEq
  rw [Nat.toList_repr, Nat.toList_repr] at hDigits
  have hValue := congrArg (Nat.ofDigitChars 10 · 0) hDigits
  simpa only [Nat.ofDigitChars_ten_toDigits] using hValue

/-- A minus sign is no digit. -/
theorem minus_append_ne_repr (s : String) (n : Nat) : "-" ++ s ≠ n.repr := by
  intro hEq
  have hMinus : '-' ∈ Nat.toDigits 10 n := by
    rw [← Nat.toList_repr, ← hEq]
    simp
  have hDigit := Nat.isDigit_of_mem_toDigits (by omega) (by omega) hMinus
  simp at hDigit

theorem toString_int_inj {i j : Int} (hEq : toString i = toString j) : i = j := by
  cases i with
  | ofNat m =>
    cases j with
    | ofNat n => exact congrArg Int.ofNat (nat_repr_inj hEq)
    | negSucc n => exact absurd hEq.symm (minus_append_ne_repr _ m)
  | negSucc m =>
    cases j with
    | ofNat n => exact absurd hEq (minus_append_ne_repr _ n)
    | negSucc n =>
      have hRepr := nat_repr_inj ((String.append_right_inj "-").mp hEq)
      exact congrArg Int.negSucc (Nat.succ.inj hRepr)

@[simp] theorem firstFreeFileAttempt_zero (fileName : String) :
    firstFreeFileAttempt fileName 0 = fileName := rfl

theorem append_ne_self (s t : String) : s ++ "_V" ++ t ≠ s := by
  intro hEq
  have hLength := congrArg String.length hEq
  rw [String.length_append, String.length_append] at hLength
  have hTwo : "_V".length = 2 := rfl
  omega

/-- Two turns try two names. -/
theorem firstFreeFileAttempt_inj {fileName : String} {i j : Int}
    (hEq : firstFreeFileAttempt fileName i = firstFreeFileAttempt fileName j) : i = j := by
  unfold firstFreeFileAttempt at hEq
  split_ifs at hEq with hi hj hj
  · rw [hi, hj]
  · exact absurd hEq.symm (append_ne_self fileName _)
  · exact absurd hEq (append_ne_self fileName _)
  · exact toString_int_inj ((String.append_right_inj _).mp hEq)

theorem firstFreeFileAttempt_ne_self {fileName : String} {i : Int} (hi : i ≠ 0) :
    fileName ≠ firstFreeFileAttempt fileName i :=
  fun hEq => hi (firstFreeFileAttempt_inj (j := 0) hEq.symm)

-- ---------------------------------------------------------------------------
-- One turn
-- ---------------------------------------------------------------------------

/-- The files after a call that has found a free name in turn `iter`. -/
def Moved (files files' : Files Content) (fileName : String) (iter : Int) : Prop :=
  firstFreeFileAttempt fileName iter ∉ files ∧
    ((iter = 0 ∧ files' = files) ∨
      (iter ≠ 0 ∧ ∃ content, files.lookup fileName = some content ∧
        files' = (files.erase fileName).insert (firstFreeFileAttempt fileName iter) content))

variable {overflowChecks : Bool} {fuel : Nat} {files files' : Files Content} {fileName : String}
  {iter : Int}

theorem nextIter_of_lt (hLt : iter + 1 < 2 ^ 31) :
    nextIter overflowChecks iter = some (iter + 1) :=
  if_pos hLt

theorem nextIter_range (hIter : -2 ^ 31 ≤ iter) {iter' : Int}
    (hNext : nextIter overflowChecks iter = some iter') : -2 ^ 31 ≤ iter' ∧ iter' < 2 ^ 31 := by
  unfold nextIter at hNext
  split_ifs at hNext
  all_goals
    obtain rfl := Option.some.inj hNext
    omega

theorem nextIter_wraps (iter : Int) : ∃ iter', nextIter false iter = some iter' := by
  by_cases hLt : iter + 1 < 2 ^ 31
  · exact ⟨_, nextIter_of_lt hLt⟩
  · exact ⟨-2 ^ 31, if_neg hLt⟩

/-- A name that is taken. -/
theorem attempt_taken (overflowChecks : Bool)
    (hTaken : firstFreeFileAttempt fileName iter ∈ files) :
    attempt overflowChecks files fileName iter =
      match nextIter overflowChecks iter with
      | some iter' => .inl iter'
      | none => .inr (.error .addOverflow) :=
  if_neg (not_not.mpr hTaken)

/-- A name that is free: the file is renamed, unless the name is its own. -/
theorem attempt_free (hFree : firstFreeFileAttempt fileName iter ∉ files) :
    attempt overflowChecks files fileName iter =
      .inr (if iter = 0 then .ok files
        else files.rename fileName (firstFreeFileAttempt fileName iter)) := by
  unfold attempt
  rw [if_pos hFree]
  by_cases hIter : iter = 0
  · subst hIter
    rw [firstFreeFileAttempt_zero, if_neg (not_not.mpr rfl), if_pos rfl]
  · rw [if_pos (firstFreeFileAttempt_ne_self hIter), if_neg hIter]

theorem moved_of_attempt
    (hOk : attempt overflowChecks files fileName iter = .inr (.ok files')) :
    Moved files files' fileName iter := by
  by_cases hFree : firstFreeFileAttempt fileName iter ∉ files
  · rw [attempt_free hFree, Sum.inr.injEq] at hOk
    refine ⟨hFree, ?_⟩
    split_ifs at hOk with hIter
    · exact Or.inl ⟨hIter, (Except.ok.inj hOk).symm⟩
    · unfold Files.rename at hOk
      split at hOk
      · cases hOk
      · exact Or.inr ⟨hIter, _, ‹_›, (Except.ok.inj hOk).symm⟩
  · rw [attempt_taken _ (not_not.mp hFree)] at hOk
    split at hOk <;> cases hOk

/-- When the first free name is found the file is there, so renaming it is no error. -/
theorem attempt_free_ok (overflowChecks : Bool)
    (hFree : firstFreeFileAttempt fileName iter ∉ files)
    (hFile : iter ≠ 0 → fileName ∈ files) :
    ∃ files', attempt overflowChecks files fileName iter = .inr (.ok files') := by
  rw [attempt_free hFree]
  by_cases hIter : iter = 0
  · exact ⟨files, by rw [if_pos hIter]⟩
  · obtain ⟨content, hContent⟩ := Finmap.mem_iff.mp (hFile hIter)
    exact ⟨_, by rw [if_neg hIter, Files.rename, hContent]⟩

-- ---------------------------------------------------------------------------
-- The loop
-- ---------------------------------------------------------------------------

/-- **Total correctness.** The loop ends with the least number whose name is free. -/
theorem makeFileAvailable_of_least (overflowChecks : Bool) {i : Nat} (hLt : i < 2 ^ 31)
    (hFree : firstFreeFileAttempt fileName i ∉ files)
    (hTaken : ∀ j : Nat, j < i → firstFreeFileAttempt fileName j ∈ files)
    (hFuel : 2 ^ 31 ≤ fuel) :
    ∃ files', makeFileAvailable overflowChecks fuel files fileName = some (.ok files') ∧
      Moved files files' fileName i := by
  suffices hLoop : ∃ r, makeFileAvailable overflowChecks fuel files fileName = some r ∧
      ∃ files', r = .ok files' ∧ Moved files files' fileName i by
    obtain ⟨_, hResult, files', rfl, hMoved⟩ := hLoop
    exact ⟨files', hResult, hMoved⟩
  refine loop_of_variant (I := fun iter : Int => ∃ k : Nat, iter = k ∧ k ≤ i)
    (Q := fun r : Except Failure (Files Content) =>
      ∃ files', r = .ok files' ∧ Moved files files' fileName i)
    (fun iter => i - iter.toNat) ?_ ⟨0, rfl, Nat.zero_le i⟩ ?_
  · rintro _ ⟨k, rfl, hk⟩
    rcases Nat.lt_or_eq_of_le hk with hk | rfl
    · right
      have hNext : nextIter overflowChecks k = some ((k + 1 : Nat) : Int) :=
        nextIter_of_lt (by omega)
      refine ⟨(k + 1 : Nat), ?_, ⟨k + 1, rfl, hk⟩, ?_⟩
      · rw [attempt_taken _ (hTaken k hk), hNext]
      · simp only [Int.toNat_natCast]
        omega
    · left
      have hFile : (k : Int) ≠ 0 → fileName ∈ files := by
        intro hk
        exact hTaken 0 (by omega)
      obtain ⟨files', hOk⟩ := attempt_free_ok overflowChecks hFree hFile
      exact ⟨_, hOk, files', rfl, moved_of_attempt hOk⟩
  · omega

/-- **Partial correctness.** Whatever happens to the counter, a call that ends has renamed
the file to a name that was free. -/
theorem moved_of_makeFileAvailable
    (hOk : makeFileAvailable overflowChecks fuel files fileName = some (.ok files')) :
    ∃ iter : Int, iter < 2 ^ 31 ∧ Moved files files' fileName iter := by
  have hAll := loop_invariant
    (I := fun iter => -2 ^ 31 ≤ iter ∧ iter < 2 ^ 31)
    (Q := fun r => ∀ files', r = .ok files' →
      ∃ iter : Int, iter < 2 ^ 31 ∧ Moved files files' fileName iter)
    ?_ ?_ (by omega) hOk
  · exact hAll files' rfl
  · intro iter iter' hIter hTurn
    by_cases hFree : firstFreeFileAttempt fileName iter ∉ files
    · rw [attempt_free hFree] at hTurn
      cases hTurn
    · rw [attempt_taken _ (not_not.mp hFree)] at hTurn
      split at hTurn
      · obtain rfl := Sum.inl.inj hTurn
        exact nextIter_range hIter.1 ‹_›
      · cases hTurn
  · rintro iter _ hIter hTurn files' rfl
    exact ⟨iter, hIter.2, moved_of_attempt hTurn⟩

-- ---------------------------------------------------------------------------
-- One call
-- ---------------------------------------------------------------------------

theorem Moved.available (hMoved : Moved files files' fileName iter) : fileName ∉ files' := by
  obtain ⟨hFree, ⟨rfl, rfl⟩ | ⟨hIter, content, -, rfl⟩⟩ := hMoved
  · exact hFree
  · rw [Finmap.mem_insert, not_or]
    exact ⟨firstFreeFileAttempt_ne_self hIter, Finmap.notMem_erase_self⟩

theorem Moved.others (hMoved : Moved files files' fileName iter) {name : String}
    (hName : name ≠ fileName) {content : Content} (hContent : files.lookup name = some content) :
    files'.lookup name = some content := by
  obtain ⟨hFree, ⟨-, rfl⟩ | ⟨-, content', -, rfl⟩⟩ := hMoved
  · exact hContent
  · have hNe : name ≠ firstFreeFileAttempt fileName iter := by
      rintro rfl
      exact hFree (Finmap.mem_of_lookup_eq_some hContent)
    rw [Finmap.lookup_insert_of_ne _ hNe, Finmap.lookup_erase_ne hName, hContent]

/-- Where the file has gone. -/
theorem Moved.moved (hMoved : Moved files files' fileName iter) {content : Content}
    (hContent : files.lookup fileName = some content) :
    iter ≠ 0 ∧ files'.lookup (firstFreeFileAttempt fileName iter) = some content ∧
      ∀ name ∈ files', name ∉ files → name = firstFreeFileAttempt fileName iter := by
  obtain ⟨hFree, ⟨rfl, rfl⟩ | ⟨hIter, content', hContent', rfl⟩⟩ := hMoved
  · exact absurd (Finmap.mem_of_lookup_eq_some hContent) hFree
  · obtain rfl := Option.some.inj (hContent.symm.trans hContent')
    refine ⟨hIter, Finmap.lookup_insert _, ?_⟩
    intro name hName hNew
    rcases Finmap.mem_insert.mp hName with hName | hName
    · exact hName
    · exact absurd (Finmap.mem_erase.mp hName).2 hNew

/-- With the least free name everything is as it should be. -/
theorem Moved.madeAvailable {i : Nat} (hMoved : Moved files files' fileName i)
    (hTaken : ∀ j : Nat, j < i → firstFreeFileAttempt fileName j ∈ files) :
    MadeAvailable files files' fileName where
  available := hMoved.available
  others _ hName _ hContent := hMoved.others hName hContent
  moved content hContent := by
    obtain ⟨hIter, hLookup, hOnly⟩ := hMoved.moved hContent
    exact ⟨i, by omega, hMoved.1, fun j _ hj => hTaken j hj, hLookup, hOnly⟩

/-- **One call.** With a free name it ends, and has done what it is for. -/
theorem makeFileAvailable_of_hasFreeName (overflowChecks : Bool)
    (hFree : HasFreeName files fileName) (hFuel : 2 ^ 31 ≤ fuel) :
    ∃ files', makeFileAvailable overflowChecks fuel files fileName = some (.ok files') ∧
      MadeAvailable files files' fileName := by
  classical
  have hExists : ∃ i : Nat, firstFreeFileAttempt fileName i ∉ files :=
    hFree.imp fun _ h => h.2
  have hTaken : ∀ j : Nat, j < Nat.find hExists → firstFreeFileAttempt fileName j ∈ files :=
    fun j hj => not_not.mp (Nat.find_min hExists hj)
  obtain ⟨i, hLt, hFree⟩ := hFree
  obtain ⟨files', hOk, hMoved⟩ := makeFileAvailable_of_least overflowChecks
    (Nat.lt_of_le_of_lt (Nat.find_min' hExists hFree) hLt) (Nat.find_spec hExists) hTaken hFuel
  exact ⟨files', hOk, hMoved.madeAvailable hTaken⟩

theorem mem_of_not_hasFreeName (hNone : ¬ HasFreeName files fileName) {i : Nat}
    (hi : i < 2 ^ 31) : firstFreeFileAttempt fileName i ∈ files := by
  by_contra hFree
  exact hNone ⟨i, hi, hFree⟩

/-- **One call, exactly.** Without a free name the counter overflows. Then the call panics,
or it goes on with negative numbers, and those are not the names it is supposed to find. -/
theorem makesAvailable_iff (overflowChecks : Bool) (files : Files Content) (fileName : String) :
    MakesAvailable overflowChecks files fileName ↔ HasFreeName files fileName := by
  constructor
  · rintro ⟨fuel, files', hOk, hMade⟩
    obtain ⟨iter, hLt, hMoved⟩ := moved_of_makeFileAvailable hOk
    by_contra hNone
    have hFile : fileName ∈ files := mem_of_not_hasFreeName hNone (i := 0) (by omega)
    obtain ⟨content, hContent⟩ := Finmap.mem_iff.mp hFile
    obtain ⟨i, -, hFree, -, hLookup, -⟩ := hMade.moved content hContent
    obtain ⟨-, -, hOnly⟩ := hMoved.moved hContent
    have hSame : (i : Int) = iter :=
      firstFreeFileAttempt_inj (hOnly _ (Finmap.mem_of_lookup_eq_some hLookup) hFree)
    exact hFree (mem_of_not_hasFreeName hNone (by omega))
  · intro hFree
    exact ⟨2 ^ 31, makeFileAvailable_of_hasFreeName overflowChecks hFree le_rfl⟩

/-- Without a free name a call panics in a build with overflow checks. -/
theorem makeFileAvailable_panics (hNone : ¬ HasFreeName files fileName) (hFuel : 2 ^ 31 ≤ fuel) :
    makeFileAvailable true fuel files fileName = some (.error .addOverflow) := by
  suffices hLoop : ∃ r, makeFileAvailable true fuel files fileName = some r ∧
      r = .error .addOverflow by
    obtain ⟨_, hResult, rfl⟩ := hLoop
    exact hResult
  refine loop_of_variant (I := fun iter : Int => ∃ k : Nat, iter = k ∧ k < 2 ^ 31)
    (Q := fun r : Except Failure (Files Content) => r = .error .addOverflow)
    (fun iter => 2 ^ 31 - 1 - iter.toNat) ?_ ⟨0, rfl, by omega⟩ (by omega)
  rintro _ ⟨k, rfl, hk⟩
  have hTurn := attempt_taken true (mem_of_not_hasFreeName hNone hk)
  by_cases hLast : k + 1 < 2 ^ 31
  · right
    have hNext : nextIter true k = some ((k + 1 : Nat) : Int) := nextIter_of_lt (by omega)
    refine ⟨(k + 1 : Nat), ?_, ⟨k + 1, rfl, hLast⟩, ?_⟩
    · rw [hTurn, hNext]
    · simp only [Int.toNat_natCast]
      omega
  · left
    have hNext : nextIter true k = none := by
      rw [nextIter, if_neg (by omega), if_pos rfl]
    exact ⟨_, by rw [hTurn, hNext], rfl⟩

/-- In a build without them it never ends when the names of the negative numbers are taken
as well. -/
theorem makeFileAvailable_diverges
    (hAll : ∀ iter : Int, -2 ^ 31 ≤ iter → iter < 2 ^ 31 →
      firstFreeFileAttempt fileName iter ∈ files) :
    makeFileAvailable false fuel files fileName = none := by
  refine Option.eq_none_iff_forall_ne_some.mpr fun r hLoop => ?_
  refine loop_invariant (I := fun iter : Int => -2 ^ 31 ≤ iter ∧ iter < 2 ^ 31)
    (Q := fun _ : Except Failure (Files Content) => False) ?_ ?_ (by omega) hLoop
  · intro iter iter' ⟨hLow, hHigh⟩ hTurn
    rw [attempt_taken _ (hAll iter hLow hHigh)] at hTurn
    split at hTurn
    · obtain rfl := Sum.inl.inj hTurn
      exact nextIter_range hLow ‹_›
    · cases hTurn
  · intro iter r ⟨hLow, hHigh⟩ hTurn
    obtain ⟨iter', hNext⟩ := nextIter_wraps iter
    rw [attempt_taken _ (hAll iter hLow hHigh), hNext] at hTurn
    cases hTurn

-- ---------------------------------------------------------------------------
-- Restarts
-- ---------------------------------------------------------------------------

variable {contents : List Content} {log : Log Content}

theorem mem_of_map_lookup {names : List String}
    (hNames : names.map (files.lookup ·) = contents.map some) {name : String}
    (hName : name ∈ names) : name ∈ files := by
  have hMem := List.mem_map_of_mem (f := (files.lookup ·)) hName
  rw [hNames] at hMem
  obtain ⟨content, -, hContent⟩ := List.mem_map.mp hMem
  exact Finmap.mem_of_lookup_eq_some hContent.symm

/-- A log goes with its file. -/
theorem Kept.moved (hKept : Kept files contents) (hMoved : Moved files files' fileName iter) :
    Kept files' contents := by
  obtain ⟨names, hNodup, hNames⟩ := hKept
  obtain ⟨follow, hSelf, hOther⟩ : ∃ follow : String → String,
      follow fileName = firstFreeFileAttempt fileName iter ∧
        ∀ name, name ≠ fileName → follow name = name :=
    ⟨fun name => if name = fileName then firstFreeFileAttempt fileName iter else name,
      if_pos rfl, fun _ hName => if_neg hName⟩
  have hNe : ∀ name ∈ names, name ≠ firstFreeFileAttempt fileName iter := by
    rintro _ hName rfl
    exact hMoved.1 (mem_of_map_lookup hNames hName)
  refine ⟨names.map follow, hNodup.map_on ?_, ?_⟩
  · intro name hName name' hName' hEq
    by_cases h : name = fileName <;> by_cases h' : name' = fileName
    · rw [h, h']
    · rw [h, hSelf, hOther name' h'] at hEq
      exact absurd hEq.symm (hNe name' hName')
    · rw [h', hSelf, hOther name h] at hEq
      exact absurd hEq (hNe name hName)
    · rwa [hOther name h, hOther name' h'] at hEq
  · rw [List.map_map, ← hNames]
    refine List.map_congr_left fun name hName => ?_
    obtain ⟨content, hContent⟩ := Finmap.mem_iff.mp (mem_of_map_lookup hNames hName)
    rw [Function.comp_apply, hContent]
    by_cases h : name = fileName
    · subst h
      rw [hSelf]
      exact (hMoved.moved hContent).2.1
    · rw [hOther name h]
      exact hMoved.others h hContent

/-- A new file is under a name of its own. -/
theorem Kept.create (hKept : Kept files contents) (hName : fileName ∉ files) (content : Content) :
    Kept (files.create fileName content) (content :: contents) := by
  obtain ⟨names, hNodup, hNames⟩ := hKept
  have hOther : ∀ name ∈ names, name ≠ fileName := by
    rintro _ hMem rfl
    exact hName (mem_of_map_lookup hNames hMem)
  refine ⟨fileName :: names, List.nodup_cons.mpr ⟨fun hMem => hOther _ hMem rfl, hNodup⟩, ?_⟩
  rw [List.map_cons, List.map_cons, ← hNames]
  congr 1
  · exact Finmap.lookup_insert _
  · exact List.map_congr_left fun name hMem => Finmap.lookup_insert_of_ne _ (hOther name hMem)

/-- What a restart goes through. -/
theorem restart_eq_some (hRestart : restart overflowChecks fuel files log = some files') :
    ∃ moved iter, Moved files moved log.name iter ∧ files' = moved.create log.name log.content := by
  unfold restart at hRestart
  split at hRestart
  · obtain ⟨iter, -, hMoved⟩ := moved_of_makeFileAvailable ‹_›
    exact ⟨_, iter, hMoved, (Option.some.inj hRestart).symm⟩
  · cases hRestart

/-- **Step.** A restart keeps the logs, and adds one. -/
theorem Kept.of_restart (hKept : Kept files contents)
    (hRestart : restart overflowChecks fuel files log = some files') :
    Kept files' (log.content :: contents) := by
  obtain ⟨moved, iter, hMoved, rfl⟩ := restart_eq_some hRestart
  exact (hKept.moved hMoved).create hMoved.available log.content

/-- **Run.** Restarts keep the logs, theirs and those that were there before. -/
theorem Kept.of_run (hKept : Kept files contents) {restarts : List (Log Content)}
    (hRun : run (restart overflowChecks fuel) files restarts = some files') :
    Kept files' ((restarts.map Log.content).reverse ++ contents) := by
  refine run_induction
    (P := fun restarts files => Kept files ((restarts.map Log.content).reverse ++ contents))
    hKept ?_ hRun
  intro restarts files log files' _ hKept hRestart
  rw [List.map_append, List.reverse_append]
  exact hKept.of_restart hRestart

/-- With a free name a restart goes through. -/
theorem restart_of_hasFreeName (hFuel : 2 ^ 31 ≤ fuel) (files : Files Content)
    (log : Log Content) (hFree : HasFreeName files log.name) :
    ∃ files', restart overflowChecks fuel files log = some files' := by
  obtain ⟨moved, hOk, -⟩ := makeFileAvailable_of_hasFreeName overflowChecks hFree hFuel
  exact ⟨moved.create log.name log.content, by rw [restart, hOk]⟩

-- ---------------------------------------------------------------------------
-- Few files
-- ---------------------------------------------------------------------------

/-- The loop knows 2^31 names, so fewer files do not take them all. -/
theorem hasFreeName_of_card_lt (hCard : files.keys.card < 2 ^ 31) (fileName : String) :
    HasFreeName files fileName := by
  have hNames : ((Finset.range (2 ^ 31)).image fun i : Nat =>
      firstFreeFileAttempt fileName i).card = 2 ^ 31 := by
    rw [Finset.card_image_of_injective, Finset.card_range]
    intro i j hEq
    exact Int.ofNat.inj (firstFreeFileAttempt_inj hEq)
  obtain ⟨name, hName, hFree⟩ :=
    Finset.exists_mem_notMem_of_card_lt_card (hNames.symm ▸ hCard)
  obtain ⟨i, hi, rfl⟩ := Finset.mem_image.mp hName
  exact ⟨i, Finset.mem_range.mp hi, fun hMem => hFree (Finmap.mem_keys.mpr hMem)⟩

theorem keys_insert (files : Files Content) (name : String) (content : Content) :
    (files.insert name content).keys = insert name files.keys := by
  ext name'
  rw [Finset.mem_insert, Finmap.mem_keys, Finmap.mem_keys, Finmap.mem_insert]

theorem Moved.card_le (hMoved : Moved files files' fileName iter) :
    files'.keys.card ≤ files.keys.card := by
  obtain ⟨-, ⟨-, rfl⟩ | ⟨-, content, hContent, rfl⟩⟩ := hMoved
  · exact le_rfl
  · have hMem : fileName ∈ files.keys :=
      Finmap.mem_keys.mpr (Finmap.mem_of_lookup_eq_some hContent)
    rw [keys_insert, Finmap.keys_erase]
    refine (Finset.card_insert_le ..).trans ?_
    rw [Finset.card_erase_add_one hMem]

/-- A restart adds one file. -/
theorem card_le_of_restart (hRestart : restart overflowChecks fuel files log = some files') :
    files'.keys.card ≤ files.keys.card + 1 := by
  obtain ⟨moved, iter, hMoved, rfl⟩ := restart_eq_some hRestart
  rw [Files.create, keys_insert]
  exact (Finset.card_insert_le ..).trans (Nat.add_le_add_right hMoved.card_le 1)

/-- With fewer than 2^31 files in the end there is a free name at every restart. -/
theorem along_of_card_le {restarts : List (Log Content)}
    (hCard : files.keys.card + restarts.length ≤ 2 ^ 31) :
    Along (restart overflowChecks fuel) (fun files log => HasFreeName files log.name) files
      restarts := by
  induction restarts generalizing files with
  | nil => trivial
  | cons log restarts ih =>
    rw [List.length_cons] at hCard
    refine ⟨hasFreeName_of_card_lt (by omega) log.name, fun files' hRestart => ih ?_⟩
    have hMore := card_le_of_restart hRestart
    omega

-- ---------------------------------------------------------------------------
-- Log files
-- ---------------------------------------------------------------------------

/-- **Log files.** A call ends and does what it is for exactly when one of the names that the
loop tries is free. And in any sequence of restarts for each of which there is one, all of
them go through and every log stays, in a file of its own: those of the restarts and those
that were there before. -/
theorem logs_kept (overflowChecks : Bool) (files : Files Content) :
    (∀ fileName, MakesAvailable overflowChecks files fileName ↔ HasFreeName files fileName) ∧
      ∀ fuel ≥ 2 ^ 31, ∀ restarts : List (Log Content),
        Along (restart overflowChecks fuel) (fun files log => HasFreeName files log.name) files
          restarts →
        ∃ files', run (restart overflowChecks fuel) files restarts = some files' ∧
          ∀ contents, Kept files contents →
            Kept files' ((restarts.map Log.content).reverse ++ contents) := by
  refine ⟨makesAvailable_iff overflowChecks files, ?_⟩
  intro fuel hFuel restarts hAlong
  obtain ⟨files', hRun⟩ := run_of_along (restart_of_hasFreeName hFuel) hAlong
  exact ⟨files', hRun, fun contents hKept => hKept.of_run hRun⟩

/-- Two restarts in an empty directory. -/
theorem logs_kept_sample :
    ∃ files', run (restart true (2 ^ 31)) (∅ : Files Nat)
        [⟨"LOG_server_0_0", 0⟩, ⟨"LOG_server_0_0", 1⟩] = some files' ∧ Kept files' [1, 0] := by
  have hAlong : Along (restart true (2 ^ 31)) (fun files log => HasFreeName files log.name)
      (∅ : Files Nat) [⟨"LOG_server_0_0", 0⟩, ⟨"LOG_server_0_0", 1⟩] :=
    along_of_card_le (by decide)
  obtain ⟨files', hRun, hKept⟩ := (logs_kept true ∅).2 (2 ^ 31) le_rfl _ hAlong
  exact ⟨files', hRun, hKept [] ⟨[], List.nodup_nil, rfl⟩⟩

/-- The names of the first `n` turns, all of them taken. -/
def crowded (fileName : String) (n : Nat) : Files Unit :=
  (List.range n).foldr (fun (i : Nat) (files : Files Unit) =>
    files.insert (firstFreeFileAttempt fileName i) ()) ∅

theorem mem_crowded {n i : Nat} (hi : i < n) :
    firstFreeFileAttempt fileName i ∈ crowded fileName n := by
  suffices hAll : ∀ is : List Nat, i ∈ is → firstFreeFileAttempt fileName i ∈
      is.foldr (fun (i : Nat) (files : Files Unit) =>
        files.insert (firstFreeFileAttempt fileName i) ()) ∅ from
    hAll _ (List.mem_range.mpr hi)
  intro is hMem
  induction is with
  | nil => cases hMem
  | cons j is ih =>
    rw [List.foldr_cons, Finmap.mem_insert]
    rcases List.mem_cons.mp hMem with rfl | hMem
    · exact Or.inl rfl
    · exact Or.inr (ih hMem)

theorem not_hasFreeName_crowded {n : Nat} (hn : 2 ^ 31 ≤ n) (fileName : String) :
    ¬ HasFreeName (crowded fileName n) fileName :=
  fun ⟨_, hi, hFree⟩ => hFree (mem_crowded (Nat.lt_of_lt_of_le hi hn))

/-- With 2^31 files under the names it tries, no call does what it is for. -/
theorem makeFileAvailable_fails_when_crowded :
    ¬ MakesAvailable true (crowded "LOG_server_0_0" (2 ^ 31)) "LOG_server_0_0" ∧
      ¬ MakesAvailable false (crowded "LOG_server_0_0" (2 ^ 31)) "LOG_server_0_0" :=
  ⟨fun hMakes => not_hasFreeName_crowded le_rfl _ ((makesAvailable_iff ..).mp hMakes),
    fun hMakes => not_hasFreeName_crowded le_rfl _ ((makesAvailable_iff ..).mp hMakes)⟩

end LineraEndToEnd.LocalNet
