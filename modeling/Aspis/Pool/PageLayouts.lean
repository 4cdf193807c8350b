import Aspis.Pool.Settlement

/-! Where the history pages of a spend stand in its account list. The anchor page
comes first, then the current page unless it has the same address, then the page
that the last new root opens. A direct spend, a preparation and a settlement plan
their lists separately, and the plan of a settlement counts the roots of each page
once more; all four follow from the sequence numbers alone. -/

namespace Aspis.Pool

open Lib Chain Statement

/-! ### The pages of a spend -/

/-- The pages that a spend touches, by number. -/
structure SpendPages where
  anchor : ℕ
  current : ℕ
  rollover : Option ℕ
  deriving DecidableEq

def spendPages (anchorSequence currentSequence count : ℕ) : SpendPages where
  anchor := (rootHistoryLocation anchorSequence).pageNumber
  current := (rootHistoryLocation currentSequence).pageNumber
  rollover :=
    if (rootHistoryLocation (currentSequence + count)).pageNumber > (rootHistoryLocation currentSequence).pageNumber then
      some (rootHistoryLocation (currentSequence + count)).pageNumber
    else none

namespace SpendPages

/-- One place for the page that a spend opens. -/
def rolloverCount (pages : SpendPages) : ℕ := if pages.rollover.isSome then 1 else 0

section
variable (env : Environment) (pool : Pubkey) (pages : SpendPages)

def anchorKey : Pubkey := (poolV1RootPageAddress env pool pages.anchor).1

def currentKey : Pubkey := (poolV1RootPageAddress env pool pages.current).1

/-- How far the current page is from the anchor page. -/
def currentOffset : ℕ := if pages.anchorKey env pool = pages.currentKey env pool then 0 else 1

/-- The place after the pages of a list that starts with the anchor page. -/
def suffixStart (start : ℕ) : ℕ := start + pages.currentOffset env pool + 1 + pages.rolloverCount

/-- The pages stand in the list of keys from `start` on. -/
structure At (keys : List Pubkey) (start : ℕ) : Prop where
  anchor_at : keys[start]? = some (pages.anchorKey env pool)
  current_at : keys[start + pages.currentOffset env pool]? = some (pages.currentKey env pool)
  rollover_at : ∀ number ∈ pages.rollover,
    keys[start + pages.currentOffset env pool + 1]? = some (poolV1RootPageAddress env pool number).1

/-- A settlement has no anchor page: the current page stands at `start`. -/
structure SettleAt (keys : List Pubkey) (start : ℕ) : Prop where
  current_at : keys[start]? = some (pages.currentKey env pool)
  rollover_at : ∀ number ∈ pages.rollover, keys[start + 1]? = some (poolV1RootPageAddress env pool number).1

/-- A planned layout names the accounts at these places. -/
structure LayoutAt (accounts : List AccountInfo) (start : ℕ) (layout : SpendPageLayoutV1) : Prop where
  pages_at : pages.At env pool (accounts.map (·.key)) start
  anchor_eq : accounts[start]? = some layout.anchor
  current_eq : accounts[start + pages.currentOffset env pool]? = some layout.current
  next_eq : layout.next = pages.rollover.bind fun number =>
    accounts[start + pages.currentOffset env pool + 1]?.map fun account => (account, number)
  suffix_eq : layout.suffix = accounts.drop (pages.suffixStart env pool start)

end

end SpendPages

/-- The spend fits into the tree. -/
structure SpendRoom (s : PoolStateV1) (count : ℕ) : Prop where
  not_full : s.currentRootSequence < POOL_V1_LEAF_CAPACITY
  fits : s.currentRootSequence + count ≤ POOL_V1_LEAF_CAPACITY

theorem requireSpendCapacity_eq_ok {s : PoolStateV1} {count : ℕ} {u : Unit} :
    requireSpendCapacity s count = .ok u ↔ SpendRoom s count := by
  simp only [requireSpendCapacity, except_bind_eq_ok, require_eq_ok]
  constructor
  · rintro ⟨-, -, -, hfull, hfits⟩
    exact ⟨hfull, hfits⟩
  · rintro ⟨hfull, hfits⟩
    refine ⟨(), ?_, (), hfull, hfits⟩
    simp only [POOL_V1_LEAF_CAPACITY, POOL_V1_TREE_DEPTH, U64_LIMIT] at *
    omega

/-- A spend of at most a page of leaves opens no page but the next. -/
theorem pageNumber_bounds (sequence : ℕ) {count : ℕ} (hcount : count ≤ POOL_V1_ROOT_HISTORY_CAPACITY) :
    (rootHistoryLocation sequence).pageNumber ≤ (rootHistoryLocation (sequence + 1)).pageNumber ∧
      (rootHistoryLocation (sequence + count)).pageNumber ≤ (rootHistoryLocation sequence).pageNumber + 1 := by
  simp only [rootHistoryLocation, POOL_V1_ROOT_HISTORY_CAPACITY] at *
  omega

theorem PoolV1TransitionKind.appendCount_le (kind : PoolV1TransitionKind) :
    1 ≤ kind.appendCount ∧ kind.appendCount ≤ 2 := by
  cases kind <;> decide

/-! ### Taking accounts from a list -/

theorem takeAccount_drop {accounts rest : List AccountInfo} {k : ℕ} {account : AccountInfo} :
    takeAccount (accounts.drop k) = .ok (account, rest) ↔
      accounts[k]? = some account ∧ rest = accounts.drop (k + 1) := by
  rw [← List.head?_drop, ← List.tail_drop]
  cases accounts.drop k with
  | nil => simp [takeAccount]
  | cons head tail => simp [takeAccount, eq_comm]

theorem getElem?_key {accounts : List AccountInfo} {k : ℕ} {account : AccountInfo} (h : accounts[k]? = some account) :
    (accounts.map (·.key))[k]? = some account.key := by
  rw [List.getElem?_map, h, Option.map_some]

theorem exists_of_getElem?_key {accounts : List AccountInfo} {k : ℕ} {key : Pubkey}
    (h : (accounts.map (·.key))[k]? = some key) : ∃ account, accounts[k]? = some account ∧ account.key = key := by
  rw [List.getElem?_map, Option.map_eq_some_iff] at h
  exact h

section
variable {env : Environment} {pool : Pubkey} {accounts : List AccountInfo} {l : Ledger}

theorem takeCurrentPage_drop (pages : SpendPages) {anchor current : AccountInfo} {start : ℕ} {rest : List AccountInfo}
    (hanchor : accounts[start]? = some anchor) (hkey : anchor.key = pages.anchorKey env pool) :
    takeCurrentPage anchor (pages.anchorKey env pool) (pages.currentKey env pool) (accounts.drop (start + 1)) =
        .ok (current, rest) ↔
      accounts[start + pages.currentOffset env pool]? = some current ∧ current.key = pages.currentKey env pool ∧
        rest = accounts.drop (start + pages.currentOffset env pool + 1) := by
  unfold takeCurrentPage SpendPages.currentOffset
  split_ifs with hsame
  · simp only [Nat.add_zero, hanchor, Except.ok.injEq, Prod.mk.injEq, Option.some.injEq]
    constructor
    · rintro ⟨rfl, rfl⟩
      exact ⟨rfl, hkey.trans hsame, rfl⟩
    · rintro ⟨rfl, -, rfl⟩
      exact ⟨rfl, rfl⟩
  · simp only [except_bind_eq_ok, except_pure_eq_ok, require_eq_ok]
    constructor
    · rintro ⟨⟨account, tail⟩, htake, -, hcurrent, heq⟩
      obtain ⟨rfl, rfl⟩ := Prod.mk.inj heq
      obtain ⟨hat, rfl⟩ := takeAccount_drop.mp htake
      exact ⟨hat, hcurrent, rfl⟩
    · rintro ⟨hat, hcurrent, rfl⟩
      exact ⟨(current, _), takeAccount_drop.mpr ⟨hat, rfl⟩, (), hcurrent, rfl⟩

/-- The page that the last new root opens, when it opens one. -/
theorem takeNextPage_drop (anchorSequence : ℕ) {sequence count k : ℕ} {next : Option (AccountInfo × ℕ)}
    {rest : List AccountInfo} :
    takeNextPage env pool (rootHistoryLocation sequence).pageNumber (rootHistoryLocation (sequence + count)).pageNumber
        (accounts.drop k) = .ok (next, rest) ↔
      (∀ number ∈ (spendPages anchorSequence sequence count).rollover,
        (accounts.map (·.key))[k]? = some (poolV1RootPageAddress env pool number).1) ∧
      (next = (spendPages anchorSequence sequence count).rollover.bind fun number =>
        accounts[k]?.map fun account => (account, number)) ∧
      rest = accounts.drop (k + (spendPages anchorSequence sequence count).rolloverCount) := by
  by_cases hrollover :
    (rootHistoryLocation (sequence + count)).pageNumber > (rootHistoryLocation sequence).pageNumber
  · simp only [takeNextPage, spendPages, SpendPages.rolloverCount, if_pos hrollover, Option.isSome_some, if_true,
      except_bind_eq_ok, except_pure_eq_ok, require_eq_ok, Option.mem_some, forall_eq', Option.bind_some]
    constructor
    · rintro ⟨⟨account, tail⟩, htake, -, hkey, heq⟩
      obtain ⟨rfl, rfl⟩ := Prod.mk.inj heq
      obtain ⟨hat, rfl⟩ := takeAccount_drop.mp htake
      exact ⟨(getElem?_key hat).trans (congrArg some hkey), by rw [hat, Option.map_some], by simp⟩
    · rintro ⟨hkey, rfl, rfl⟩
      obtain ⟨account, hat, hsame⟩ := exists_of_getElem?_key hkey
      exact ⟨(account, _), takeAccount_drop.mpr ⟨hat, rfl⟩, (), hsame, by simp [hat]⟩
  · simp [takeNextPage, spendPages, SpendPages.rolloverCount, if_neg hrollover, eq_comm]

theorem SpendPages.LayoutAt.anchor_key {pages : SpendPages} {start : ℕ} {layout : SpendPageLayoutV1}
    (h : pages.LayoutAt env pool accounts start layout) : layout.anchor.key = pages.anchorKey env pool :=
  Option.some.inj ((getElem?_key h.anchor_eq).symm.trans h.pages_at.anchor_at)

theorem SpendPages.LayoutAt.current_key {pages : SpendPages} {start : ℕ} {layout : SpendPageLayoutV1}
    (h : pages.LayoutAt env pool accounts start layout) : layout.current.key = pages.currentKey env pool :=
  Option.some.inj ((getElem?_key h.current_eq).symm.trans h.pages_at.current_at)

/-! ### The three planners -/

/-- A page account that is not written and does not sign. -/
structure ReadonlyPage (env : Environment) (account : AccountInfo) (l : Ledger) : Prop where
  program_owned : requireProgramAccount env.programId account l false = .ok ()
  not_signer : account.isSigner = false

/-- A direct spend writes the current page when the first new root still fits, and reads a separate anchor page. -/
structure SpendPageFlags (env : Environment) (pool : Pubkey) (pages : SpendPages) (s : PoolStateV1)
    (layout : SpendPageLayoutV1) (l : Ledger) : Prop where
  current_owned : requireProgramAccount env.programId layout.current l
    (decide ((rootHistoryLocation (s.currentRootSequence + 1)).pageNumber = pages.current)) = .ok ()
  current_not_signer : layout.current.isSigner = false
  anchor_readonly : pages.anchorKey env pool ≠ pages.currentKey env pool → ReadonlyPage env layout.anchor l

theorem requireSeparateAnchorPage_eq_ok {anchor : AccountInfo} {p : Prop} [Decidable p] {u : Unit} :
    requireSeparateAnchorPage env anchor (decide p) l = .ok u ↔ (¬ p → ReadonlyPage env anchor l) := by
  by_cases hp : p
  · simp [requireSeparateAnchorPage, hp]
  · simp only [requireSeparateAnchorPage, hp, decide_false, Bool.false_eq_true, if_false, not_false_eq_true,
      forall_true_left, except_bind_eq_ok, require_eq_ok]
    constructor
    · rintro ⟨_, howned, hsigner⟩
      exact ⟨howned, hsigner⟩
    · rintro ⟨howned, hsigner⟩
      exact ⟨(), howned, hsigner⟩

variable {s : PoolStateV1} {anchorSequence count : ℕ} {layout : SpendPageLayoutV1}

/-- The layout of a direct spend: the pool, then the pages. -/
theorem planSpendPageLayoutV1_eq_ok (hcount : count ≤ POOL_V1_ROOT_HISTORY_CAPACITY) :
    planSpendPageLayoutV1 env accounts s anchorSequence count l = .ok layout ↔
      SpendRoom s count ∧
      (spendPages anchorSequence s.currentRootSequence count).anchor ≤
        (spendPages anchorSequence s.currentRootSequence count).current ∧
      ∃ pool, accounts[0]? = some pool ∧
        (spendPages anchorSequence s.currentRootSequence count).LayoutAt env pool.key accounts 1 layout ∧
        SpendPageFlags env pool.key (spendPages anchorSequence s.currentRootSequence count) s layout l := by
  obtain ⟨hfirst, hlast⟩ := pageNumber_bounds s.currentRootSequence hcount
  have hstart : ∀ account rest, takeAccount accounts = .ok (account, rest) ↔
      accounts[0]? = some account ∧ rest = accounts.drop 1 := fun account rest => takeAccount_drop (k := 0)
  simp only [planSpendPageLayoutV1, except_bind_eq_ok, except_pure_eq_ok, require_eq_ok, requireSpendCapacity_eq_ok,
    requireSeparateAnchorPage_eq_ok]
  constructor
  · rintro ⟨-, hroom, ⟨pool, rest⟩, hpool, -, ⟨hle, -⟩, ⟨anchor, rest⟩, hanchor, -, hanchorKey, ⟨current, rest⟩, hcurrent,
      _, howned, -, hsigner, _, hseparate, ⟨next, suffix⟩, hnext, rfl⟩
    obtain ⟨hpoolAt, rfl⟩ := (hstart _ _).mp hpool
    obtain ⟨hanchorAt, rfl⟩ := takeAccount_drop.mp hanchor
    obtain ⟨hcurrentAt, hcurrentKey, rfl⟩ := (takeCurrentPage_drop (spendPages anchorSequence s.currentRootSequence count)
      hanchorAt hanchorKey).mp hcurrent
    obtain ⟨hrollover, rfl, rfl⟩ := (takeNextPage_drop anchorSequence).mp hnext
    refine ⟨hroom, hle, pool, hpoolAt, ⟨⟨?_, ?_, hrollover⟩, hanchorAt, hcurrentAt, rfl, rfl⟩,
      howned, hsigner, hseparate⟩
    · exact (getElem?_key hanchorAt).trans (congrArg some hanchorKey)
    · exact (getElem?_key hcurrentAt).trans (congrArg some hcurrentKey)
  · rintro ⟨hroom, hle, pool, hpoolAt, hlayout, hflags⟩
    refine ⟨(), hroom, (pool, _), (hstart _ _).mpr ⟨hpoolAt, rfl⟩, (), ⟨hle, hfirst, hlast⟩, (layout.anchor, _),
      takeAccount_drop.mpr ⟨hlayout.anchor_eq, rfl⟩, (), hlayout.anchor_key, (layout.current, _),
      (takeCurrentPage_drop _ hlayout.anchor_eq hlayout.anchor_key).mpr ⟨hlayout.current_eq, hlayout.current_key, rfl⟩,
      (), hflags.current_owned, (), hflags.current_not_signer, (),
      hflags.anchor_readonly, (layout.next, layout.suffix),
      (takeNextPage_drop anchorSequence).mpr ⟨hlayout.pages_at.rollover_at, hlayout.next_eq, hlayout.suffix_eq⟩, rfl⟩

/-- The preparation's current page, with the checks of a page of its own. -/
theorem takeReadonlyCurrentPage_drop (pages : SpendPages) {anchor current : AccountInfo} {start : ℕ}
    {rest : List AccountInfo} (hanchor : accounts[start]? = some anchor)
    (hkey : anchor.key = pages.anchorKey env pool) (hreadonly : ReadonlyPage env anchor l) :
    takeReadonlyCurrentPage env anchor (pages.anchorKey env pool) (pages.currentKey env pool)
        (accounts.drop (start + 1)) l = .ok (current, rest) ↔
      accounts[start + pages.currentOffset env pool]? = some current ∧ current.key = pages.currentKey env pool ∧
        ReadonlyPage env current l ∧ rest = accounts.drop (start + pages.currentOffset env pool + 1) := by
  unfold takeReadonlyCurrentPage SpendPages.currentOffset
  split_ifs with hsame
  · simp only [Nat.add_zero, hanchor, Except.ok.injEq, Prod.mk.injEq, Option.some.injEq]
    constructor
    · rintro ⟨rfl, rfl⟩
      exact ⟨rfl, hkey.trans hsame, hreadonly, rfl⟩
    · rintro ⟨rfl, -, -, rfl⟩
      exact ⟨rfl, rfl⟩
  · simp only [except_bind_eq_ok, except_pure_eq_ok, require_eq_ok]
    constructor
    · rintro ⟨⟨account, tail⟩, htake, -, hcurrent, _, howned, -, hsigner, heq⟩
      obtain ⟨rfl, rfl⟩ := Prod.mk.inj heq
      obtain ⟨hat, rfl⟩ := takeAccount_drop.mp htake
      exact ⟨hat, hcurrent, ⟨howned, hsigner⟩, rfl⟩
    · rintro ⟨hat, hcurrent, ⟨howned, hsigner⟩, rfl⟩
      exact ⟨(current, _), takeAccount_drop.mpr ⟨hat, rfl⟩, (), hcurrent, (), howned, (), hsigner, rfl⟩

/-- The layout of a preparation: the authority, the pool, then the pages, none of them written. -/
theorem planPrepareSettlementPageLayoutV1_eq_ok (hcount : count ≤ POOL_V1_ROOT_HISTORY_CAPACITY) :
    planPrepareSettlementPageLayoutV1 env accounts s anchorSequence count l = .ok layout ↔
      SpendRoom s count ∧
      (spendPages anchorSequence s.currentRootSequence count).anchor ≤
        (spendPages anchorSequence s.currentRootSequence count).current ∧
      ∃ pool, accounts[1]? = some pool ∧
        (spendPages anchorSequence s.currentRootSequence count).LayoutAt env pool.key accounts 2 layout ∧
        ReadonlyPage env layout.anchor l ∧ ReadonlyPage env layout.current l := by
  obtain ⟨-, hlast⟩ := pageNumber_bounds s.currentRootSequence hcount
  simp only [planPrepareSettlementPageLayoutV1, except_bind_eq_ok, except_pure_eq_ok, require_eq_ok,
    requireSpendCapacity_eq_ok]
  constructor
  · rintro ⟨-, hroom, ⟨pool, rest⟩, hpool, -, ⟨hle, -⟩, ⟨anchor, rest⟩, hanchor, -, hanchorKey, _, howned, -, hsigner,
      ⟨current, rest⟩, hcurrent, ⟨next, suffix⟩, hnext, rfl⟩
    obtain ⟨hpoolAt, rfl⟩ := takeAccount_drop.mp hpool
    obtain ⟨hanchorAt, rfl⟩ := takeAccount_drop.mp hanchor
    obtain ⟨hcurrentAt, hcurrentKey, hreadonly, rfl⟩ := (takeReadonlyCurrentPage_drop
      (spendPages anchorSequence s.currentRootSequence count) hanchorAt hanchorKey ⟨howned, hsigner⟩).mp hcurrent
    obtain ⟨hrollover, rfl, rfl⟩ := (takeNextPage_drop anchorSequence).mp hnext
    refine ⟨hroom, hle, pool, hpoolAt, ⟨⟨?_, ?_, hrollover⟩, hanchorAt, hcurrentAt, rfl, rfl⟩, ⟨howned, hsigner⟩,
      hreadonly⟩
    · exact (getElem?_key hanchorAt).trans (congrArg some hanchorKey)
    · exact (getElem?_key hcurrentAt).trans (congrArg some hcurrentKey)
  · rintro ⟨hroom, hle, pool, hpoolAt, hlayout, hanchor, hcurrent⟩
    exact ⟨(), hroom, (pool, _), takeAccount_drop.mpr ⟨hpoolAt, rfl⟩, (), ⟨hle, hlast⟩, (layout.anchor, _),
      takeAccount_drop.mpr ⟨hlayout.anchor_eq, rfl⟩, (), hlayout.anchor_key, (), hanchor.program_owned, (),
      hanchor.not_signer, (layout.current, _),
      (takeReadonlyCurrentPage_drop _ hlayout.anchor_eq hlayout.anchor_key hanchor).mpr
        ⟨hlayout.current_eq, hlayout.current_key, hcurrent, rfl⟩, (layout.next, layout.suffix),
      (takeNextPage_drop anchorSequence).mpr ⟨hlayout.pages_at.rollover_at, hlayout.next_eq, hlayout.suffix_eq⟩, rfl⟩

/-- A page account that a settlement writes. -/
structure WritablePage (env : Environment) (account : AccountInfo) (l : Ledger) : Prop where
  program_owned : requireProgramAccount env.programId account l true = .ok ()
  not_signer : account.isSigner = false

theorem takePreparedNextPage_drop (anchorSequence : ℕ) {sequence count k : ℕ} {next : Option AccountInfo}
    {rest : List AccountInfo} :
    takePreparedNextPage env pool (rootHistoryLocation sequence).pageNumber
        (rootHistoryLocation (sequence + count)).pageNumber (accounts.drop k) l = .ok (next, rest) ↔
      (∀ number ∈ (spendPages anchorSequence sequence count).rollover,
        (accounts.map (·.key))[k]? = some (poolV1RootPageAddress env pool number).1) ∧
      (next = (spendPages anchorSequence sequence count).rollover.bind fun _ => accounts[k]?) ∧
      (∀ account ∈ next, WritablePage env account l) ∧
      rest = accounts.drop (k + (spendPages anchorSequence sequence count).rolloverCount) := by
  by_cases hrollover :
    (rootHistoryLocation (sequence + count)).pageNumber > (rootHistoryLocation sequence).pageNumber
  · simp only [takePreparedNextPage, spendPages, SpendPages.rolloverCount, if_pos hrollover, Option.isSome_some, if_true,
      except_bind_eq_ok, except_pure_eq_ok, require_eq_ok, Option.mem_some, forall_eq', Option.bind_some]
    constructor
    · rintro ⟨⟨account, tail⟩, htake, -, hkey, _, howned, -, hsigner, heq⟩
      obtain ⟨rfl, rfl⟩ := Prod.mk.inj heq
      obtain ⟨hat, rfl⟩ := takeAccount_drop.mp htake
      refine ⟨(getElem?_key hat).trans (congrArg some hkey), hat.symm, ?_, by simp⟩
      intro other hother
      obtain rfl := Option.some.inj hother
      exact ⟨howned, hsigner⟩
    · rintro ⟨hkey, rfl, hwritable, rfl⟩
      obtain ⟨account, hat, hsame⟩ := exists_of_getElem?_key hkey
      obtain ⟨howned, hsigner⟩ := hwritable account hat
      exact ⟨(account, _), takeAccount_drop.mpr ⟨hat, rfl⟩, (), hsame, (), howned, (), hsigner, by simp [hat]⟩
  · simp only [takePreparedNextPage, spendPages, SpendPages.rolloverCount, if_neg hrollover]
    constructor
    · intro h
      obtain ⟨rfl, rfl⟩ := Prod.mk.inj (Except.ok.inj h)
      simp
    · rintro ⟨-, rfl, -, rfl⟩
      simp

/-- The layout of a settlement: the authority, the pool, the current page and the page it opens. -/
theorem planSettlePreparedLayoutV1_eq_ok (anchorSequence : ℕ) {kind : PoolV1TransitionKind}
    {settled : SettlePreparedLayoutV1} :
    planSettlePreparedLayoutV1 env accounts s kind l = .ok settled ↔
      SpendRoom s kind.appendCount ∧ ∃ pool current next, accounts[1]? = some pool ∧
        (spendPages anchorSequence s.currentRootSequence kind.appendCount).SettleAt env pool.key
          (accounts.map (·.key)) 2 ∧
        accounts[2]? = some current ∧
        requireProgramAccount env.programId current l
          (decide ((rootHistoryLocation (s.currentRootSequence + 1)).pageNumber =
            (rootHistoryLocation s.currentRootSequence).pageNumber)) = .ok () ∧ current.isSigner = false ∧
        (next = (spendPages anchorSequence s.currentRootSequence kind.appendCount).rollover.bind fun _ => accounts[3]?) ∧
        (∀ account ∈ next, WritablePage env account l) ∧
        settleSuffix current (decide ((rootHistoryLocation (s.currentRootSequence + 1)).pageNumber =
            (rootHistoryLocation s.currentRootSequence).pageNumber)) next kind
          (accounts.drop (3 + (spendPages anchorSequence s.currentRootSequence kind.appendCount).rolloverCount)) =
          .ok settled := by
  have hcount : kind.appendCount ≤ POOL_V1_ROOT_HISTORY_CAPACITY := kind.appendCount_le.2.trans (by decide)
  obtain ⟨hfirst, hlast⟩ := pageNumber_bounds s.currentRootSequence hcount
  simp only [planSettlePreparedLayoutV1, except_bind_eq_ok, require_eq_ok, requireSpendCapacity_eq_ok]
  constructor
  · rintro ⟨⟨pool, rest⟩, hpool, _, hroom, -, -, ⟨current, rest⟩, hcurrent, -, hkey, _, howned, -, hsigner, ⟨next, rest⟩,
      hnext, hsuffix⟩
    obtain ⟨hpoolAt, rfl⟩ := takeAccount_drop.mp hpool
    obtain ⟨hcurrentAt, rfl⟩ := takeAccount_drop.mp hcurrent
    obtain ⟨hrollover, hnextEq, hwritable, rfl⟩ := (takePreparedNextPage_drop anchorSequence).mp hnext
    exact ⟨hroom, pool, current, next, hpoolAt, ⟨(getElem?_key hcurrentAt).trans (congrArg some hkey), hrollover⟩,
      hcurrentAt, howned, hsigner, hnextEq, hwritable, hsuffix⟩
  · rintro ⟨hroom, pool, current, next, hpoolAt, hpages, hcurrentAt, howned, hsigner, hnextEq, hwritable, hsuffix⟩
    have hkey : current.key = (poolV1RootPageAddress env pool.key (rootHistoryLocation s.currentRootSequence).pageNumber).1 :=
      Option.some.inj ((getElem?_key hcurrentAt).symm.trans hpages.current_at)
    exact ⟨(pool, _), takeAccount_drop.mpr ⟨hpoolAt, rfl⟩, (), hroom, (), ⟨hfirst, hlast⟩, (current, _),
      takeAccount_drop.mpr ⟨hcurrentAt, rfl⟩, (), hkey, (), howned, (), hsigner, (next, _),
      (takePreparedNextPage_drop anchorSequence).mpr ⟨hpages.rollover_at, hnextEq, hwritable, rfl⟩, hsuffix⟩

end

/-! ### The distribution of the new roots -/

/-- The place of the `i`-th new root: on the current page while it has room, then on the next. -/
def assignedPlace (header : RootPageHeaderV1) (inCurrent i : ℕ) : RootHistoryLocationV1 :=
  if i < inCurrent then ⟨header.pageNumber, header.filled + i⟩ else ⟨header.pageNumber + 1, i - inCurrent⟩

/-- The current page is full, takes one of two roots, or takes them all. -/
theorem rootsInCurrent_cases (sequence : ℕ) {count : ℕ} (hcount : 1 ≤ count ∧ count ≤ 2) :
    (sequence % POOL_V1_ROOT_HISTORY_CAPACITY = 255 ∧
      rootsInCurrent sequence count (rootHistoryLocation sequence).pageNumber = 0) ∨
    (sequence % POOL_V1_ROOT_HISTORY_CAPACITY = 254 ∧ count = 2 ∧
      rootsInCurrent sequence count (rootHistoryLocation sequence).pageNumber = 1) ∨
    (sequence % POOL_V1_ROOT_HISTORY_CAPACITY + count ≤ 255 ∧
      rootsInCurrent sequence count (rootHistoryLocation sequence).pageNumber = count) := by
  have hfirst : (rootHistoryLocation (sequence + 1)).pageNumber = (rootHistoryLocation sequence).pageNumber ↔
      sequence % 256 ≠ 255 := by
    simp only [rootHistoryLocation, POOL_V1_ROOT_HISTORY_CAPACITY]
    omega
  have hlast : (rootHistoryLocation (sequence + count)).pageNumber = (rootHistoryLocation sequence).pageNumber ↔
      sequence % 256 + count ≤ 255 := by
    simp only [rootHistoryLocation, POOL_V1_ROOT_HISTORY_CAPACITY]
    omega
  unfold POOL_V1_ROOT_HISTORY_CAPACITY
  obtain hslot | ⟨hslot, rfl⟩ | hslot :
    sequence % 256 = 255 ∨ (sequence % 256 = 254 ∧ count = 2) ∨ sequence % 256 + count ≤ 255 := by omega
  · rw [rootsInCurrent, if_neg (fun h => hfirst.mp h hslot)]
    exact .inl ⟨hslot, rfl⟩
  · rw [rootsInCurrent, if_pos (hfirst.mpr (by omega)), if_neg (fun h => absurd (hlast.mp h) (by omega))]
    exact .inr (.inl ⟨hslot, rfl, rfl⟩)
  · rw [rootsInCurrent, if_pos (hfirst.mpr (by omega)), if_pos (hlast.mpr hslot)]
    exact .inr (.inr ⟨hslot, rfl⟩)

/-- The next page opens when the new roots do not all fit behind the current one. -/
theorem spendPages_rollover (anchorSequence sequence : ℕ) {count : ℕ} (hcount : count ≤ 2) :
    (spendPages anchorSequence sequence count).rollover =
      if sequence % POOL_V1_ROOT_HISTORY_CAPACITY + count ≤ 255 then none
      else some ((rootHistoryLocation sequence).pageNumber + 1) := by
  have hlast : (rootHistoryLocation (sequence + count)).pageNumber > (rootHistoryLocation sequence).pageNumber ↔
      ¬ sequence % POOL_V1_ROOT_HISTORY_CAPACITY + count ≤ 255 := by
    simp only [rootHistoryLocation, POOL_V1_ROOT_HISTORY_CAPACITY]
    omega
  unfold spendPages
  by_cases hslot : sequence % POOL_V1_ROOT_HISTORY_CAPACITY + count ≤ 255
  · rw [if_neg (fun h => hlast.mp h hslot), if_pos hslot]
  · rw [if_pos (hlast.mpr hslot), if_neg hslot, Option.some.injEq]
    simp only [rootHistoryLocation, POOL_V1_ROOT_HISTORY_CAPACITY] at *
    omega

/-- On the page of the current root, the distribution puts every new root where its sequence number says, and fills the
next page exactly when the spend has a rollover page. -/
theorem checkedHistoryDistribution_places {sequence count : ℕ} {header : RootPageHeaderV1} (anchorSequence : ℕ)
    (hroom : sequence + count ≤ POOL_V1_LEAF_CAPACITY) (hcount : 1 ≤ count ∧ count ≤ 2)
    (hpage : header.pageNumber = (rootHistoryLocation sequence).pageNumber)
    (hfilled : header.filled = (rootHistoryLocation sequence).slot + 1) :
    ∃ inCurrent inNext, checkedHistoryDistribution sequence header count = .ok (inCurrent, inNext) ∧
      inCurrent + inNext = count ∧ header.filled + inCurrent ≤ POOL_V1_ROOT_HISTORY_CAPACITY ∧
      (∀ i < count, rootHistoryLocation (sequence + 1 + i) = assignedPlace header inCurrent i) ∧
      (spendPages anchorSequence sequence count).rollover =
        if inNext = 0 then none else some (header.pageNumber + 1) := by
  have hbound : sequence + 1 < U64_LIMIT ∧ sequence + count < U64_LIMIT := by
    simp only [POOL_V1_LEAF_CAPACITY, POOL_V1_TREE_DEPTH, U64_LIMIT] at *
    omega
  have hpages := pageNumber_bounds sequence (hcount.2.trans (by decide : 2 ≤ POOL_V1_ROOT_HISTORY_CAPACITY))
  have hcases := rootsInCurrent_cases sequence hcount
  have hfit : header.filled + rootsInCurrent sequence count header.pageNumber ≤ POOL_V1_ROOT_HISTORY_CAPACITY := by
    rw [hpage, hfilled]
    simp only [rootHistoryLocation, POOL_V1_ROOT_HISTORY_CAPACITY] at *
    omega
  refine ⟨rootsInCurrent sequence count header.pageNumber, count - rootsInCurrent sequence count header.pageNumber, ?_,
    ?_, hfit, ?_, ?_⟩
  · simp only [checkedHistoryDistribution, except_bind_eq_ok, require_eq_ok, except_pure_eq_ok]
    exact ⟨(), hbound, (), hpage ▸ hpages, (), hfit, trivial⟩
  · rw [hpage]
    omega
  · intro i hi
    rw [assignedPlace, hpage, hfilled]
    obtain ⟨hslot, heq⟩ | ⟨hslot, rfl, heq⟩ | ⟨hslot, heq⟩ := hcases <;> rw [heq] <;>
      simp only [rootHistoryLocation, POOL_V1_ROOT_HISTORY_CAPACITY] at * <;> split_ifs <;>
      simp only [RootHistoryLocationV1.mk.injEq] <;> omega
  · rw [hpage, spendPages_rollover anchorSequence sequence hcount.2]
    obtain ⟨hslot, heq⟩ | ⟨hslot, rfl, heq⟩ | ⟨hslot, heq⟩ := hcases
    · rw [heq, if_neg (by omega), if_neg (by omega)]
    · rw [heq, if_neg (by omega), if_neg (by omega)]
    · rw [heq, if_pos hslot, if_pos (Nat.sub_self count)]

/-! ### The plan's images -/

theorem length_patch_root (root : Digest) {slot : ℕ} {data : Bytes} (hlen : 64 + 32 * (slot + 1) ≤ data.length) :
    (patch (64 + 32 * slot) (encodeDigestCanonical root) data).length = data.length := by
  apply length_patch_of_le
  rw [length_encodeDigestCanonical]
  omega

theorem length_writeRoots {roots : List Digest} {slot : ℕ} {data : Bytes}
    (hlen : 64 + 32 * (slot + roots.length) ≤ data.length) : (writeRoots slot roots data).length = data.length := by
  induction roots generalizing slot data with
  | nil => rfl
  | cons root roots ih =>
    rw [List.length_cons] at hlen
    have hpatch := length_patch_root root (show 64 + 32 * (slot + 1) ≤ data.length by omega)
    rw [writeRoots, ih (by rw [hpatch]; omega), hpatch]

/-- Storing roots leaves the bytes before them. -/
theorem slice_writeRoots_before {roots : List Digest} {slot off len : ℕ} {data : Bytes}
    (hoff : off + len ≤ 64 + 32 * slot) (hlen : 64 + 32 * (slot + roots.length) ≤ data.length) :
    slice off len (writeRoots slot roots data) = slice off len data := by
  induction roots generalizing slot data with
  | nil => rfl
  | cons root roots ih =>
    rw [List.length_cons] at hlen
    have hpatch := length_patch_root root (show 64 + 32 * (slot + 1) ≤ data.length by omega)
    rw [writeRoots, ih (by omega) (by rw [hpatch]; omega), slice_patch_before hoff (by omega)]

/-- A stored root is read back from its slot. -/
theorem slice_writeRoots {roots : List Digest} {slot i : ℕ} {data : Bytes} (hi : i < roots.length)
    (hlen : 64 + 32 * (slot + roots.length) ≤ data.length) :
    slice (64 + 32 * (slot + i)) 32 (writeRoots slot roots data) = encodeDigestCanonical roots[i] := by
  induction roots generalizing slot i data with
  | nil => simp at hi
  | cons root roots ih =>
    rw [List.length_cons] at hlen
    have hpatch := length_patch_root root (show 64 + 32 * (slot + 1) ≤ data.length by omega)
    rw [writeRoots]
    cases i with
    | zero =>
      rw [slice_writeRoots_before (by omega) (by rw [hpatch]; omega), Nat.add_zero,
        slice_patch_self (by rw [length_encodeDigestCanonical]) (by omega)]
      rfl
    | succ i =>
      rw [← Nat.add_assoc, Nat.add_right_comm slot i 1]
      exact ih (Nat.lt_of_succ_lt_succ hi) (by rw [hpatch]; omega)

/-- The two images of a plan: the current page with its new roots, and the page that is opened. -/
def plannedPage (source : Bytes) (header : RootPageHeaderV1) (pool : Pubkey) (number first : ℕ) (roots : List Digest)
    (inCurrent i : ℕ) : Bytes :=
  if i < inCurrent then nextCurrentImage source header roots inCurrent
  else writeNewPageUnchecked pool number first (roots.drop inCurrent)

theorem slice_nextCurrentImage {source : Bytes} {header : RootPageHeaderV1} {roots : List Digest} {inCurrent i : ℕ}
    (hi : i < inCurrent) (hroots : inCurrent ≤ roots.length)
    (hfit : header.filled + inCurrent ≤ POOL_V1_ROOT_HISTORY_CAPACITY)
    (hsource : source.length = POOL_V1_ROOT_HISTORY_PAGE_ACCOUNT_BYTES) :
    some (slice (64 + 32 * (header.filled + i)) 32 (nextCurrentImage source header roots inCurrent)) =
      roots[i]?.map encodeDigestCanonical := by
  have htake : (roots.take inCurrent).length = inCurrent := List.length_take_of_le hroots
  have hroom : 64 + 32 * (header.filled + (roots.take inCurrent).length) ≤ source.length := by
    rw [htake, hsource]
    simp only [POOL_V1_ROOT_HISTORY_CAPACITY, POOL_V1_ROOT_HISTORY_PAGE_ACCOUNT_BYTES] at *
    omega
  rw [nextCurrentImage, if_pos (by omega), appendRootsUnchecked,
    slice_patch_after (by rw [length_leBytes]; omega) (by rw [length_writeRoots hroom]; omega),
    slice_writeRoots (htake.symm ▸ hi) hroom, List.getElem_take, List.getElem?_eq_getElem (by omega), Option.map_some]

theorem slice_writeNewPageUnchecked {pool : Pubkey} {number first i : ℕ} {roots : List Digest} (hi : i < roots.length)
    (hroots : roots.length ≤ POOL_V1_ROOT_HISTORY_CAPACITY) :
    some (slice (64 + 32 * i) 32 (writeNewPageUnchecked pool number first roots)) =
      roots[i]?.map encodeDigestCanonical := by
  have hstored : slice (64 + 32 * (0 + i)) 32
      (writeRoots 0 roots (pageHeaderBytes pool number first roots.length ++ zeros 8192)) =
      encodeDigestCanonical roots[i] := by
    apply slice_writeRoots hi
    simp only [List.length_append, length_pageHeaderBytes, length_zeros, POOL_V1_ROOT_HISTORY_CAPACITY] at *
    omega
  rw [Nat.zero_add] at hstored
  rw [writeNewPageUnchecked, hstored, List.getElem?_eq_getElem hi, Option.map_some]

/-- The image of an assigned page holds the root in its assigned slot. -/
theorem slice_plannedPage {source : Bytes} {header : RootPageHeaderV1} {pool : Pubkey} {number first : ℕ}
    {roots : List Digest} {inCurrent i : ℕ} (hi : i < roots.length) (hroots : inCurrent ≤ roots.length)
    (hpage : roots.length ≤ POOL_V1_ROOT_HISTORY_CAPACITY)
    (hfit : header.filled + inCurrent ≤ POOL_V1_ROOT_HISTORY_CAPACITY)
    (hsource : source.length = POOL_V1_ROOT_HISTORY_PAGE_ACCOUNT_BYTES) :
    some (slice (64 + 32 * (assignedPlace header inCurrent i).slot) 32
      (plannedPage source header pool number first roots inCurrent i)) = roots[i]?.map encodeDigestCanonical := by
  unfold plannedPage assignedPlace
  by_cases hcurrent : i < inCurrent
  · rw [if_pos hcurrent, if_pos hcurrent]
    exact slice_nextCurrentImage hcurrent hroots hfit hsource
  · rw [if_neg hcurrent, if_neg hcurrent]
    have hstored : some (slice (64 + 32 * (i - inCurrent)) 32
        (writeNewPageUnchecked pool number first (roots.drop inCurrent))) =
        (roots.drop inCurrent)[i - inCurrent]?.map encodeDigestCanonical :=
      slice_writeNewPageUnchecked (by rw [List.length_drop]; omega) (by rw [List.length_drop]; omega)
    rw [List.getElem?_drop, Nat.add_sub_cancel' (Nat.le_of_not_lt hcurrent)] at hstored
    exact hstored

end Aspis.Pool
