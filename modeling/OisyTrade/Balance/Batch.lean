import OisyTrade.Balance.WriteBack

/-!
# Batches of balance operations

`with_write_back` runs a whole sequence of operations on one buffer and flushes once.  `oneByOne`
flushes after every operation.  The two compute the same as long as the rows that are debited were
there at the start: an operation reads the balances of the buffer and, for a debit, whether the table
had the row (`perform_agree`), and a flush in between changes neither.

Rows may differ: a row that was created and emptied again inside one batch is not stored.  The
operations of settling only credit rows that were not there, so for them the tables are equal.
-/

namespace OisyTrade

/-- The operations of a write-back buffer. -/
inductive TableOperation
  | transfer (debtor creditor : UserId) (token : TokenId) (gross fee : Quantity)
  | unreserve (user : UserId) (token : TokenId) (amount : Quantity)
  | deposit (user : UserId) (token : TokenId) (amount : Quantity)
  | withdraw (user : UserId) (token : TokenId) (amount : Quantity)
  | reserve (user : UserId) (token : TokenId) (amount : Quantity)
deriving DecidableEq

/-- What an operation returns. -/
abbrev OperationResult := Except InsufficientBalanceError Unit

namespace TableOperation

/-- Run an operation on a buffer. -/
def perform (wb : BalanceWriteBack) : TableOperation →
    Except Trap (OperationResult × BalanceWriteBack)
  | transfer debtor creditor token gross fee => do
      let wb ← wb.transfer debtor creditor token gross fee
      .ok (.ok (), wb)
  | unreserve user token amount => do
      let wb ← wb.unreserve user token amount
      .ok (.ok (), wb)
  | deposit user token amount => do
      let wb ← wb.deposit user token amount
      .ok (.ok (), wb)
  | withdraw user token amount => wb.withdraw user token amount
  | reserve user token amount => wb.reserve user token amount

/-- The row an operation debits and requires to exist. -/
def debtor : TableOperation → Option BalanceKey
  | transfer debtor _ token _ _ => some (.new token debtor)
  | unreserve user token _ => some (.new token user)
  | _ => none

/-- The operations that settling emits. -/
def settles : TableOperation → Bool
  | transfer .. => true
  | unreserve .. => true
  | _ => false

end TableOperation

/-- Run operations on one buffer. -/
def BalanceWriteBack.performAll (wb : BalanceWriteBack) : List TableOperation →
    Except Trap (List OperationResult × BalanceWriteBack)
  | [] => .ok ([], wb)
  | op :: ops => do
      let (result, wb) ← op.perform wb
      let (results, wb) ← wb.performAll ops
      .ok (result :: results, wb)

namespace TokenBalance

/-- `with_write_back` around a sequence of operations. -/
def batch (table : TokenBalance) (ops : List TableOperation) :
    Except Trap (List OperationResult × TokenBalance) := do
  let (results, wb) ← (BalanceWriteBack.new table).performAll ops
  .ok (results, wb.flush)

/-- One `with_write_back` for each operation. -/
def oneByOne (table : TokenBalance) : List TableOperation →
    Except Trap (List OperationResult × TokenBalance)
  | [] => .ok ([], table)
  | op :: ops => do
      let (result, table) ← table.batch [op]
      let (results, table) ← table.oneByOne ops
      .ok (result ++ results, table)

end TokenBalance

namespace BalanceWriteBack

variable {wb wb' wb₁ wb₂ : BalanceWriteBack}

/-! ## What an operation reads -/

/-- Two buffers show the same balances and have accrued the same fees. -/
structure SameView (wb₁ wb₂ : BalanceWriteBack) : Prop where
  feePool : wb₁.feePool = wb₂.feePool
  balance : ∀ key, (wb₁.load key).balance = (wb₂.load key).balance

/-- `wb'` was reached from `wb` without a flush. -/
structure Follows (wb wb' : BalanceWriteBack) : Prop where
  balances : wb'.balances = wb.balances
  existed : ∀ key, (wb'.load key).existed = (wb.load key).existed
  remembers : wb.Remembers → wb'.Remembers

lemma Follows.refl (wb : BalanceWriteBack) : wb.Follows wb := ⟨rfl, fun _ => rfl, id⟩

lemma Follows.trans {wb'' : BalanceWriteBack} (h : wb.Follows wb') (h' : wb'.Follows wb'') :
    wb.Follows wb'' :=
  ⟨h'.balances.trans h.balances, fun key => (h'.existed key).trans (h.existed key),
    fun hr => h'.remembers (h.remembers hr)⟩

lemma remembers_new (table : TokenBalance) : (new table).Remembers := fun _ _ h => nomatch h

lemma Remembers.load_existed (h : wb.Remembers) (key : BalanceKey) :
    (wb.load key).existed = (wb.balances.get key).isSome := by
  rw [load]
  cases hb : wb.buffer.get key with
  | none => rfl
  | some row => exact h key row hb

lemma follows_store (wb : BalanceWriteBack) (key : BalanceKey) (b : Balance) :
    wb.Follows (wb.store key b) := by
  refine ⟨rfl, fun key' => ?_, fun h key' row hrow => ?_⟩
  · rw [load_store]
    split_ifs with hk
    · rw [hk]
    · rfl
  · rw [store, SortedMap.get_insert] at hrow
    split_ifs at hrow with hk
    · cases hrow
      rw [← hk]
      exact h.load_existed key
    · exact h key' row hrow

lemma SameView.store (h : SameView wb₁ wb₂) (key : BalanceKey) (b : Balance) :
    SameView (wb₁.store key b) (wb₂.store key b) := by
  refine ⟨h.feePool, fun key' => ?_⟩
  rw [load_store, load_store]
  split_ifs
  · rfl
  · exact h.balance key'

/-- Two runs of an operation lead to the same view. -/
def Alike (wb₁ wb₂ : BalanceWriteBack) (wb₁' wb₂' : BalanceWriteBack) : Prop :=
  SameView wb₁' wb₂' ∧ wb₁.Follows wb₁' ∧ wb₂.Follows wb₂'

lemma modifyOrCreate_agree (h : SameView wb₁ wb₂) (key : BalanceKey)
    (f : Balance → Except Trap Balance) :
    Except.Agree (Alike wb₁ wb₂) (wb₁.modifyOrCreate key f) (wb₂.modifyOrCreate key f) := by
  rw [modifyOrCreate, modifyOrCreate, h.balance key]
  refine Except.Agree.bind (R := fun a b => a = b) (Except.Agree.self fun _ _ => rfl) ?_
  rintro b _ rfl
  exact ⟨h.store key b, follows_store _ _ _, follows_store _ _ _⟩

lemma modifyExisting_agree (h : SameView wb₁ wb₂) {key : BalanceKey}
    (h₁ : (wb₁.load key).existed = true) (h₂ : (wb₂.load key).existed = true) (bug : Bug)
    (f : Balance → Except Trap Balance) :
    Except.Agree (Alike wb₁ wb₂) (wb₁.modifyExisting key bug f)
      (wb₂.modifyExisting key bug f) := by
  rw [modifyExisting, modifyExisting, h₁, h₂, assertBug, Except.assert_true, Except.bind_ok,
    Except.bind_ok]
  exact modifyOrCreate_agree h key f

lemma tryMutate_agree (h : SameView wb₁ wb₂) (key : BalanceKey)
    (f : Balance → Except Trap (Except InsufficientBalanceError Balance)) :
    Except.Agree (fun r₁ r₂ => r₁.1 = r₂.1 ∧ Alike wb₁ wb₂ r₁.2 r₂.2) (wb₁.tryMutate key f)
      (wb₂.tryMutate key f) := by
  rw [tryMutate, tryMutate, h.balance key]
  refine Except.Agree.bind (R := fun a b => a = b) (Except.Agree.self fun _ _ => rfl) ?_
  rintro r _ rfl
  cases r with
  | error e => exact ⟨rfl, h, .refl _, .refl _⟩
  | ok b => exact ⟨rfl, h.store key b, follows_store _ _ _, follows_store _ _ _⟩

lemma transfer_agree (h : SameView wb₁ wb₂) {debtor creditor : UserId} {token : TokenId}
    (h₁ : (wb₁.load (.new token debtor)).existed = true)
    (h₂ : (wb₂.load (.new token debtor)).existed = true) (gross fee : Quantity) :
    Except.Agree (Alike wb₁ wb₂) (wb₁.transfer debtor creditor token gross fee)
      (wb₂.transfer debtor creditor token gross fee) := by
  rw [transfer, transfer, h.feePool]
  refine Except.Agree.bind (R := fun a b => a = b) (Except.Agree.self fun _ _ => rfl) ?_
  rintro ⟨net, feePool⟩ _ rfl
  -- The fee pool is no part of a row.
  have hpool : SameView { wb₁ with feePool } { wb₂ with feePool } := ⟨rfl, h.balance⟩
  have hkept : ∀ wb : BalanceWriteBack, wb.Follows { wb with feePool } :=
    fun _ => ⟨rfl, fun _ => rfl, id⟩
  refine Except.Agree.bind (modifyExisting_agree hpool h₁ h₂ _ _) ?_
  rintro wb₁' wb₂' ⟨hsame, hf₁, hf₂⟩
  refine (modifyOrCreate_agree hsame (.new token creditor) (·.deposit net)).with_eq ?_
  rintro wb₁'' wb₂'' - - ⟨hsame', hf₁', hf₂'⟩
  exact ⟨hsame', ((hkept wb₁).trans hf₁).trans hf₁', ((hkept wb₂).trans hf₂).trans hf₂'⟩

/-- **An operation reads the view**, and for a debit whether the table had the row. -/
lemma perform_agree (h : SameView wb₁ wb₂) (op : TableOperation)
    (hdebtor : ∀ key, op.debtor = some key →
      (wb₁.load key).existed = true ∧ (wb₂.load key).existed = true) :
    Except.Agree (fun r₁ r₂ => r₁.1 = r₂.1 ∧ Alike wb₁ wb₂ r₁.2 r₂.2) (op.perform wb₁)
      (op.perform wb₂) := by
  cases op with
  | transfer debtor creditor token gross fee =>
      obtain ⟨h₁, h₂⟩ := hdebtor _ rfl
      exact (transfer_agree h h₁ h₂ gross fee).bind fun _ _ halike => ⟨rfl, halike⟩
  | unreserve user token amount =>
      obtain ⟨h₁, h₂⟩ := hdebtor _ rfl
      exact (modifyExisting_agree h h₁ h₂ _ _).bind fun _ _ halike => ⟨rfl, halike⟩
  | deposit user token amount =>
      exact (modifyOrCreate_agree h _ _).bind fun _ _ halike => ⟨rfl, halike⟩
  | withdraw user token amount =>
      exact tryMutate_agree h (.new token user) (·.withdraw amount)
  | reserve user token amount =>
      exact tryMutate_agree h (.new token user) (·.reserve amount)

/-- **A refused operation leaves the buffer as it was.** -/
lemma eq_of_perform_error {op : TableOperation} {e : InsufficientBalanceError}
    (h : op.perform wb = .ok (.error e, wb')) : wb' = wb := by
  have hmutate : ∀ {key : BalanceKey} {f}, wb.tryMutate key f = .ok (.error e, wb') → wb' = wb := by
    intro key f hm
    simp only [tryMutate, Except.bind_eq_ok] at hm
    obtain ⟨r, -, hm⟩ := hm
    cases r with
    | error e' =>
        cases hm
        rfl
    | ok b => cases hm
  cases op with
  | transfer debtor creditor token gross fee =>
      simp only [TableOperation.perform, Except.bind_eq_ok, Except.ok.injEq, Prod.mk.injEq] at h
      obtain ⟨_, -, hr, -⟩ := h
      cases hr
  | unreserve user token amount =>
      simp only [TableOperation.perform, Except.bind_eq_ok, Except.ok.injEq, Prod.mk.injEq] at h
      obtain ⟨_, -, hr, -⟩ := h
      cases hr
  | deposit user token amount =>
      simp only [TableOperation.perform, Except.bind_eq_ok, Except.ok.injEq, Prod.mk.injEq] at h
      obtain ⟨_, -, hr, -⟩ := h
      cases hr
  | withdraw user token amount =>
      have hm : wb.tryMutate (.new token user) (·.withdraw amount) = .ok (.error e, wb') := h
      exact hmutate hm
  | reserve user token amount =>
      have hm : wb.tryMutate (.new token user) (·.reserve amount) = .ok (.error e, wb') := h
      exact hmutate hm

lemma performAll_append (wb : BalanceWriteBack) (before after : List TableOperation) :
    wb.performAll (before ++ after) = (do
      let (results, wb) ← wb.performAll before
      let (results', wb) ← wb.performAll after
      .ok (results ++ results', wb)) := by
  induction before generalizing wb with
  | nil =>
      simp only [List.nil_append, performAll, Except.bind_ok]
      cases wb.performAll after <;> rfl
  | cons op before ih =>
      rw [List.cons_append, performAll, performAll]
      cases op.perform wb with
      | error e => rfl
      | ok r =>
          simp only [Except.bind_ok, ih]
          cases r.2.performAll before with
          | error e => rfl
          | ok r' =>
              simp only [Except.bind_ok]
              cases r'.2.performAll after <;> rfl

/-! ## A flush in between -/

/-- **The table mirrors the buffer**: it shows the same balances and has the rows the buffer started
from; if `strict`, it has no other row but those that hold something. -/
structure Mirrors (strict : Prop) (wb : BalanceWriteBack) (table : TokenBalance) : Prop where
  view : SameView wb (new table)
  remembers : wb.Remembers
  kept : ∀ key, (wb.balances.get key).isSome → (table.balances.get key).isSome
  fresh : strict → ∀ key, wb.balances.get key = none →
    ((table.balances.get key).isSome ↔ (wb.load key).balance.isZero = false)

lemma mirrors_new (strict : Prop) (table : TokenBalance) : Mirrors strict (new table) table := by
  refine ⟨⟨rfl, fun _ => rfl⟩, remembers_new table, fun _ h => h, fun _ key hkey => ?_⟩
  have hnone : table.balances.get key = none := hkey
  have hzero : ((new table).load key).balance = Balance.zero := by
    show (table.balances.get key).getD Balance.zero = _
    rw [hnone]
    rfl
  rw [hnone, hzero, Balance.isZero_iff.mpr ⟨Quantity.toNat_zero, Quantity.toNat_zero⟩]
  exact ⟨nofun, nofun⟩

/-- Settling only credits rows that the table did not have. -/
lemma isZero_of_settles {op : TableOperation} {r : OperationResult} {key : BalanceKey}
    (hop : op.settles = true) (hkey : op.debtor ≠ some key)
    (h : op.perform wb = .ok (r, wb')) (hne : (wb.load key).balance.isZero = false) :
    (wb'.load key).balance.isZero = false := by
  cases op with
  | transfer debtor creditor token gross fee =>
      simp only [TableOperation.perform, transfer, modifyExisting, modifyOrCreate,
        Except.bind_eq_ok, Except.ok.injEq, Prod.mk.injEq, Prod.exists] at h
      obtain ⟨_, ⟨net, pool, -, _, ⟨-, -, b, -, rfl⟩, b', hb', rfl⟩, -, rfl⟩ := h
      have hdebtor : BalanceKey.new token debtor ≠ key := fun he => hkey (congrArg some he)
      have hload : ∀ k, BalanceKey.new token debtor ≠ k →
          ((BalanceWriteBack.store { wb with feePool := pool } (.new token debtor) b).load k)
            = wb.load k := by
        intro k hk
        rw [load_store, if_neg hk]
        rfl
      rw [load_store]
      by_cases hcreditor : BalanceKey.new token creditor = key
      · subst hcreditor
        rw [if_pos rfl]
        rw [hload _ hdebtor, Balance.deposit_eq_ok] at hb'
        rw [Balance.isZero_eq_false] at hne ⊢
        show b'.free.toNat ≠ 0 ∨ b'.reserved.toNat ≠ 0
        rw [hb'.1, hb'.2]
        omega
      · rw [if_neg hcreditor, hload _ hdebtor]
        exact hne
  | unreserve user token amount =>
      simp only [TableOperation.perform, unreserve, modifyExisting, Except.bind_eq_ok,
        Except.ok.injEq, Prod.mk.injEq] at h
      obtain ⟨_, ⟨-, -, b, -, rfl⟩, -, rfl⟩ := h
      rw [load_store, if_neg fun he => hkey (congrArg some he)]
      exact hne
  | deposit => cases hop
  | withdraw => cases hop
  | reserve => cases hop

/-- **One operation, with and without a flush.** -/
lemma Mirrors.perform {strict : Prop} {table : TokenBalance} (h : Mirrors strict wb table)
    (op : TableOperation) (hdebtor : ∀ key, op.debtor = some key → (wb.balances.get key).isSome)
    (hstrict : strict → op.settles = true) :
    Except.Agree (fun r₁ r₂ => r₂.1 = [r₁.1] ∧ Mirrors strict r₁.2 r₂.2 ∧
      r₁.2.balances = wb.balances) (op.perform wb) (table.batch [op]) := by
  have hbatch : table.batch [op] = (do
      let (result, wb) ← op.perform (new table)
      .ok ([result], wb.flush)) := by
    simp only [TokenBalance.batch, performAll, Except.bind_ok]
    cases op.perform (new table) <;> rfl
  have hagree := perform_agree h.view op fun key hkey =>
    ⟨(h.remembers.load_existed key).trans (hdebtor key hkey),
      ((remembers_new table).load_existed key).trans (h.kept key (hdebtor key hkey))⟩
  rw [hbatch, ← bind_pure (op.perform wb)]
  refine (hagree.with_eq (Q := fun r₁ r₂ => op.perform wb = .ok r₁ ∧ r₁.1 = r₂.1 ∧
    Alike wb (new table) r₁.2 r₂.2) fun r₁ r₂ h₁ _ hr => ⟨h₁, hr⟩).bind ?_
  rintro ⟨result, wb₁⟩ ⟨_, wb₂⟩ ⟨hrun, rfl, hview, hf₁, hf₂⟩
  have hr₁ := hf₁.remembers h.remembers
  have hr₂ := hf₂.remembers (remembers_new table)
  have hrows : ∀ key, (wb₂.flush.balances.get key).isSome ↔
      (table.balances.get key).isSome ∨ (wb₁.load key).balance.isZero = false := by
    intro key
    have hexisted : (wb₂.load key).existed = (table.balances.get key).isSome :=
      (hf₂.existed key).trans ((remembers_new table).load_existed key)
    rw [hr₂.get_flush, BalanceRow.worthPersisting, hexisted, hview.balance]
    cases (table.balances.get key).isSome <;> cases (wb₂.load key).balance.isZero <;> simp
  refine ⟨rfl, ⟨⟨hview.feePool, fun key => ?_⟩, hr₁, fun key hkey => ?_, fun hs key hkey => ?_⟩,
    hf₁.balances⟩
  · rw [hview.balance key, ← hr₂.row_flush]
    rfl
  · rw [hf₁.balances] at hkey
    exact (hrows key).mpr (Or.inl (h.kept key hkey))
  · rw [hf₁.balances] at hkey
    rw [hrows, h.fresh hs key hkey, or_iff_right_iff_imp]
    refine isZero_of_settles (hstrict hs) (fun hd => ?_) hrun
    have hsome := hdebtor key hd
    rw [hkey] at hsome
    cases hsome

/-- **A sequence of operations, with and without flushes.** -/
theorem Mirrors.performAll {strict : Prop} (ops : List TableOperation) :
    ∀ {wb : BalanceWriteBack} {table : TokenBalance}, Mirrors strict wb table →
      (∀ op ∈ ops, ∀ key, op.debtor = some key → (wb.balances.get key).isSome) →
      (strict → ∀ op ∈ ops, op.settles = true) →
      Except.Agree (fun r₁ r₂ => r₁.1 = r₂.1 ∧ Mirrors strict r₁.2 r₂.2) (wb.performAll ops)
        (table.oneByOne ops) := by
  induction ops with
  | nil => exact fun h _ _ => ⟨rfl, h⟩
  | cons op ops ih =>
      intro wb table h hdebtors hstrict
      rw [BalanceWriteBack.performAll, TokenBalance.oneByOne]
      refine (h.perform op (hdebtors op List.mem_cons_self)
        fun hs => hstrict hs op List.mem_cons_self).bind ?_
      rintro ⟨result, wb₁⟩ ⟨results, table₁⟩ ⟨hresult, h₁, hkept⟩
      have hresult' : results = [result] := hresult
      subst hresult'
      refine (ih h₁ (fun o ho key hkey => ?_) fun hs o ho =>
        hstrict hs o (List.mem_cons_of_mem _ ho)).bind ?_
      · rw [hkept]
        exact hdebtors o (List.mem_cons_of_mem _ ho) key hkey
      · rintro ⟨rest, wb₂⟩ ⟨rest', table₂⟩ ⟨hrest, h₂⟩
        have hrest' : rest = rest' := hrest
        subst hrest'
        exact ⟨rfl, h₂⟩

/-- A table that mirrors a buffer strictly is what the buffer is flushed to. -/
lemma Mirrors.flush_eq {table : TokenBalance} (h : Mirrors True wb table) : wb.flush = table := by
  have hbalances : wb.flush.balances = table.balances := by
    refine SortedMap.ext_get fun key => ?_
    refine Option.eq_of_getD_eq (d := Balance.zero) ?_ ?_
    · rw [h.remembers.get_flush, BalanceRow.worthPersisting, h.remembers.load_existed]
      cases hget : wb.balances.get key with
      | none =>
          rw [h.fresh trivial key hget]
          cases (wb.load key).balance.isZero <;> simp
      | some b =>
          have hsome := h.kept key (by rw [hget]; rfl)
          rw [hsome]
          simp
    · exact (h.remembers.row_flush key).trans (h.view.balance key)
  obtain ⟨balances, pool⟩ := table
  have hpool : wb.feePool = pool := h.view.feePool
  simp only at hbalances
  rw [← hbalances, ← hpool]
  rfl

end BalanceWriteBack

namespace TokenBalance

/-- **Two batches end alike**: with the same results, fees and balances, reading a row that is not
there as zero. -/
structure SameEnd (r₁ r₂ : List OperationResult × TokenBalance) : Prop where
  results : r₁.1 = r₂.1
  feePool : r₁.2.feePool = r₂.2.feePool
  balances : ∀ key, r₁.2.row key = r₂.2.row key

/-- **The buffer is transparent.**  If every row that is debited was stored at the start, one
write-back for the whole sequence and one for each operation trap together or end alike, and after
transfers and unreserves in the same table.  A refused withdrawal or reservation changes nothing:
the sequence without it ends in the same table. -/
theorem batch_transparent (table : TokenBalance) (ops : List TableOperation)
    (hdebtors : ∀ op ∈ ops, ∀ key, op.debtor = some key → (table.balances.get key).isSome) :
    Except.Agree SameEnd (table.batch ops) (table.oneByOne ops) ∧
    ((∀ op ∈ ops, op.settles = true) → table.batch ops = table.oneByOne ops) ∧
    ∀ before op after, ops = before ++ op :: after → ∀ results wb e wb',
      (BalanceWriteBack.new table).performAll before = .ok (results, wb) →
      op.perform wb = .ok (.error e, wb') → wb' = wb ∧
        (table.batch ops).map Prod.snd = (table.batch (before ++ after)).map Prod.snd := by
  refine ⟨?_, fun hsettles => ?_, ?_⟩
  · have h := (BalanceWriteBack.mirrors_new False table).performAll ops hdebtors nofun
    rw [batch, ← bind_pure (table.oneByOne ops)]
    refine h.bind ?_
    rintro ⟨results, wb⟩ ⟨_, table'⟩ ⟨rfl, hm⟩
    refine ⟨rfl, hm.view.feePool, fun key => ?_⟩
    exact (hm.remembers.row_flush key).trans (hm.view.balance key)
  · have h := (BalanceWriteBack.mirrors_new True table).performAll ops hdebtors fun _ => hsettles
    rw [batch]
    cases hrun : (BalanceWriteBack.new table).performAll ops with
    | error e =>
        rw [(h.error_iff e).mp hrun]
        rfl
    | ok r =>
        cases hrun' : table.oneByOne ops with
        | error e =>
            rw [(h.error_iff e).mpr hrun'] at hrun
            cases hrun
        | ok r' =>
            rw [hrun, hrun'] at h
            obtain ⟨results, wb⟩ := r
            obtain ⟨results', table'⟩ := r'
            obtain ⟨rfl, hm⟩ := h
            rw [Except.bind_ok]
            exact congrArg (fun t => Except.ok (results, t)) hm.flush_eq
  · rintro before op after rfl results wb e wb' hbefore hop
    obtain rfl := BalanceWriteBack.eq_of_perform_error hop
    refine ⟨rfl, ?_⟩
    simp only [batch, BalanceWriteBack.performAll_append, hbefore, Except.bind_ok,
      BalanceWriteBack.performAll, hop]
    cases wb'.performAll after <;> rfl

/-! A sample: the row of the second user is there, the one of the first user is not. -/

def sampleTable : TokenBalance :=
  { balances := SortedMap.empty.insert (.new ⟨⟨100⟩⟩ ⟨1, Seq.one_lt⟩)
      ⟨Quantity.ofNat 5, Quantity.ofNat 7⟩,
    feePool := FeePool.empty }

def sampleOperations : List TableOperation :=
  [.deposit Seq.zero ⟨⟨100⟩⟩ (Quantity.ofNat 3), .withdraw Seq.zero ⟨⟨100⟩⟩ (Quantity.ofNat 9),
    .transfer ⟨1, Seq.one_lt⟩ Seq.zero ⟨⟨100⟩⟩ (Quantity.ofNat 7) (Quantity.ofNat 1)]

theorem batch_transparent_sampleTable :
    ((sampleTable.batch sampleOperations).map fun r => r.1.map Except.isOk)
        = .ok [true, false, true] ∧
      Except.Agree SameEnd (sampleTable.batch sampleOperations)
        (sampleTable.oneByOne sampleOperations) := by
  refine ⟨by decide +kernel, ?_⟩
  refine (batch_transparent sampleTable sampleOperations ?_).1
  intro op hop key hkey
  simp only [sampleOperations, List.mem_cons, List.not_mem_nil, or_false] at hop
  rcases hop with rfl | rfl | rfl
  · cases hkey
  · cases hkey
  · cases hkey
    decide +kernel

end TokenBalance

end OisyTrade
