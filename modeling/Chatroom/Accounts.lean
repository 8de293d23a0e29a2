import Chatroom.PrefixInduction
import Chatroom.Registration
import Mathlib.Logic.Function.Basic

/-!
# One table for all accounts

`saveAndEncode` is called for many users, each with an object of its own, and all
rows go into one table, which has no key but the id. So an account can be stored
more than once, and `selectOne` throws for it from then on.

`account_login_iff` says what all calls together leave of an account. It is
logged in to exactly if one save with the account returned and no other did, and
with exactly one password: that of the object, encoded as often as the object had
been saved before, whether these saves returned or not. Once two have returned,
no call makes up for it.
-/

/-- **The user table, and the user objects of all callers.** -/
structure Registrations (ι : Type*) where
  db : UserTable
  users : ι → User

namespace UserServiceImpl

variable {σ : Type} {ι : Type*} [DecidableEq ι] (encoder : PasswordEncoder σ)

/-- **`saveAndEncode`, on one object after another.** -/
def saveEach : StepMachine (ι × SaveCall σ) (Except SaveException Integer) (Registrations ι) :=
  fun s p =>
    let o := saveAndEncode encoder ⟨s.db, s.users p.1⟩ p.2
    (o.1, ⟨o.2.db, Function.update s.users p.1 o.2.user⟩)

/-- The saves of one object. -/
def savesOf (i : ι) (es : List (ι × SaveCall σ)) : List (SaveCall σ) :=
  es.filterMap (fun p => if p.1 = i then some p.2 else none)

/-- **A save of an object with the account returns**, at a point of a run. -/
def Stored (s : Registrations ι) (account : String) (es pre : List (ι × SaveCall σ)) (i : ι)
    (call : SaveCall σ) : Prop :=
  pre ++ [(i, call)] <+: es ∧ (s.users i).account = some account
    ∧ (saveEach encoder ((saveEach encoder).after s pre) (i, call)).1.isOk = true

/-- How many saves with the account return. -/
def storedCount (s : Registrations ι) (account : String) (es : List (ι × SaveCall σ)) : ℕ :=
  (es.zip ((saveEach encoder).answers s es)).countP
    (fun x => (s.users x.1.1).account = some account ∧ x.2.isOk = true)

variable {encoder} {s : Registrations ι} {account : String} {plain : ι → String}
  {es pre : List (ι × SaveCall σ)} {i : ι} {call : SaveCall σ}

/-- **A save throws or stores a row**, and leaves its encoding in the object. -/
theorem saveAndEncode_cases (encoder : PasswordEncoder σ) (r : Registration) (call : SaveCall σ)
    {p : String} (hplain : r.user.password = some p) :
    (∃ e, saveAndEncode encoder r call = (.error e,
        ⟨r.db, { r.user with password := some (encoder.encode call.salt p) }⟩))
      ∨ ∃ db row, saveAndEncode encoder r call = (.ok 1, ⟨db, row⟩)
        ∧ db.rows = r.db.rows ++ [row] ∧ row.account = r.user.account
        ∧ row.password = some (encoder.encode call.salt p) := by
  simp only [saveAndEncode, hplain]
  cases hinsert : (if call.available then
      r.db.insert { r.user with password := some (encoder.encode call.salt p) } call.newId
    else none) with
  | none => exact Or.inl ⟨_, rfl⟩
  | some db =>
    refine Or.inr ⟨db, _, rfl, ?_, rfl, rfl⟩
    split at hinsert
    · unfold UserTable.insert at hinsert
      split at hinsert
      · obtain rfl := Option.some.inj hinsert
        rfl
      · exact absurd hinsert (by simp)
    · exact absurd hinsert (by simp)

/-- A save changes the table, and its own object. -/
theorem saveEach_eq {t : Registrations ι} {answer : Except SaveException Integer}
    {r : Registration} (h : saveAndEncode encoder ⟨t.db, t.users i⟩ call = (answer, r)) :
    saveEach encoder t (i, call) = (answer, ⟨r.db, Function.update t.users i r.user⟩) := by
  show ((saveAndEncode encoder ⟨t.db, t.users i⟩ call).1,
    (⟨(saveAndEncode encoder ⟨t.db, t.users i⟩ call).2.db, Function.update t.users i
      (saveAndEncode encoder ⟨t.db, t.users i⟩ call).2.user⟩ : Registrations ι)) = _
  rw [h]

theorem savesOf_snoc (j : ι) :
    savesOf j (es ++ [(i, call)]) = savesOf j es ++ if i = j then [call] else [] := by
  unfold savesOf
  rw [List.filterMap_append]
  by_cases h : i = j
  · simp [h]
  · simp [h]

theorem storedCount_snoc :
    storedCount encoder s account (es ++ [(i, call)])
      = storedCount encoder s account es
        + if (s.users i).account = some account
            ∧ (saveEach encoder ((saveEach encoder).after s es) (i, call)).1.isOk = true then 1
          else 0 := by
  unfold storedCount
  rw [StepMachine.answers_snoc, List.zip_append (by rw [StepMachine.length_answers]),
    List.countP_append]
  simp [List.countP_singleton]

theorem stored_snoc_iff {j : ι} {call' : SaveCall σ} :
    Stored encoder s account (es ++ [(i, call)]) pre j call'
      ↔ Stored encoder s account es pre j call'
        ∨ (pre = es ∧ (j, call') = (i, call) ∧ (s.users i).account = some account
          ∧ (saveEach encoder ((saveEach encoder).after s es) (i, call)).1.isOk = true) := by
  unfold Stored
  rw [List.prefix_concat_iff]
  constructor
  · rintro ⟨heq | hbefore, haccount, hok⟩
    · obtain ⟨rfl, hp⟩ := List.append_inj' heq rfl
      obtain ⟨rfl, rfl⟩ := Prod.mk.inj (List.singleton_inj.mp hp)
      exact Or.inr ⟨rfl, rfl, haccount, hok⟩
    · exact Or.inl ⟨hbefore, haccount, hok⟩
  · rintro (⟨hbefore, haccount, hok⟩ | ⟨rfl, hp, haccount, hok⟩)
    · exact ⟨Or.inr hbefore, haccount, hok⟩
    · obtain ⟨rfl, rfl⟩ := Prod.mk.inj hp
      exact ⟨Or.inl rfl, haccount, hok⟩

/-- The rows of an account when a row was stored. -/
theorem selectByAccount_of_rows (account : String) {db db' : UserTable} {row : User}
    (hrows : db'.rows = db.rows ++ [row]) :
    db'.selectByAccount (some account)
      = db.selectByAccount (some account)
        ++ if row.account = some account then [row] else [] := by
  show db'.rows.filter _ = db.rows.filter _ ++ _
  rw [hrows, List.filter_append]
  by_cases h : row.account = some account
  · simp [h]
  · simp [h]

/-! ## What the saves of a run leave -/

variable (encoder s account plain) in
/-- **What holds after any saves**: the objects have their accounts, and their passwords
encoded as often as they were saved; and the rows of the account are those of the saves
that returned. -/
structure AccountInv (es : List (ι × SaveCall σ)) : Prop where
  account_eq : ∀ i, (((saveEach encoder).after s es).users i).account = (s.users i).account
  password_eq : ∀ i, (((saveEach encoder).after s es).users i).password
    = some (encodings encoder (plain i) (savesOf i es))
  length_eq : (((saveEach encoder).after s es).db.selectByAccount (some account)).length
    = storedCount encoder s account es
  /-- Each save has its row. -/
  exists_row : ∀ pre i call, Stored encoder s account es pre i call →
    ∃ row ∈ ((saveEach encoder).after s es).db.selectByAccount (some account),
      row.password
        = some (encoder.encode call.salt (encodings encoder (plain i) (savesOf i pre)))
  /-- Each row has its save. -/
  exists_save : ∀ row ∈ ((saveEach encoder).after s es).db.selectByAccount (some account),
    ∃ pre i call, Stored encoder s account es pre i call ∧ row.password
      = some (encoder.encode call.salt (encodings encoder (plain i) (savesOf i pre)))

theorem accountInv_nil (hplain : ∀ i, (s.users i).password = some (plain i))
    (hnew : s.db.selectByAccount (some account) = []) :
    AccountInv encoder s account plain [] where
  account_eq _ := rfl
  password_eq i := hplain i
  length_eq := congrArg List.length hnew
  exists_row pre i call h := absurd (mem_of_step h.1) List.not_mem_nil
  exists_save row hrow := by
    rw [StepMachine.after_nil, hnew] at hrow
    exact absurd hrow List.not_mem_nil

/-- The objects after a save, whether it returned or not. -/
theorem AccountInv.users_update (hinv : AccountInv encoder s account plain es) {user : User}
    (haccount : user.account = (((saveEach encoder).after s es).users i).account)
    (hpassword : user.password
      = some (encoder.encode call.salt (encodings encoder (plain i) (savesOf i es)))) (j : ι) :
    (Function.update ((saveEach encoder).after s es).users i user j).account
        = (s.users j).account
      ∧ (Function.update ((saveEach encoder).after s es).users i user j).password
        = some (encodings encoder (plain j) (savesOf j (es ++ [(i, call)]))) := by
  rw [savesOf_snoc]
  by_cases h : i = j
  · subst h
    rw [Function.update_self, if_pos rfl, encodings_snoc]
    exact ⟨haccount.trans (hinv.account_eq i), hpassword⟩
  · rw [Function.update_of_ne (Ne.symm h), if_neg h, List.append_nil]
    exact ⟨hinv.account_eq j, hinv.password_eq j⟩

/-- A save that throws. -/
theorem AccountInv.throws (hinv : AccountInv encoder s account plain es) {e : SaveException}
    {user : User} (haccount : user.account = (((saveEach encoder).after s es).users i).account)
    (hpassword : user.password
      = some (encoder.encode call.salt (encodings encoder (plain i) (savesOf i es))))
    (h : saveEach encoder ((saveEach encoder).after s es) (i, call)
      = (.error e, ⟨((saveEach encoder).after s es).db,
          Function.update ((saveEach encoder).after s es).users i user⟩)) :
    AccountInv encoder s account plain (es ++ [(i, call)]) := by
  have hnone : ¬ (saveEach encoder ((saveEach encoder).after s es) (i, call)).1.isOk = true := by
    rw [h]
    exact Bool.false_ne_true
  have hstored (pre : List (ι × SaveCall σ)) (j : ι) (call' : SaveCall σ) :
      Stored encoder s account (es ++ [(i, call)]) pre j call'
        ↔ Stored encoder s account es pre j call' := by
    rw [stored_snoc_iff]
    exact or_iff_left (fun hnew => hnone hnew.2.2.2)
  have husers := hinv.users_update (i := i) haccount hpassword
  refine ⟨fun j => ?_, fun j => ?_, ?_, fun pre j call' hj => ?_, fun row hrow => ?_⟩
  · rw [StepMachine.after_snoc, h]
    exact (husers j).1
  · rw [StepMachine.after_snoc, h]
    exact (husers j).2
  · rw [StepMachine.after_snoc, storedCount_snoc, if_neg (fun hnew => hnone hnew.2), h]
    exact hinv.length_eq
  · rw [StepMachine.after_snoc, h]
    exact hinv.exists_row pre j call' ((hstored pre j call').mp hj)
  · rw [StepMachine.after_snoc, h] at hrow
    obtain ⟨pre, j, call', hj, hrowPassword⟩ := hinv.exists_save row hrow
    exact ⟨pre, j, call', (hstored pre j call').mpr hj, hrowPassword⟩

/-- A save that returns. -/
theorem AccountInv.returns (hinv : AccountInv encoder s account plain es) {n : Integer}
    {db : UserTable} {row : User}
    (hrows : db.rows = ((saveEach encoder).after s es).db.rows ++ [row])
    (haccount : row.account = (((saveEach encoder).after s es).users i).account)
    (hpassword : row.password
      = some (encoder.encode call.salt (encodings encoder (plain i) (savesOf i es))))
    (h : saveEach encoder ((saveEach encoder).after s es) (i, call)
      = (.ok n, ⟨db, Function.update ((saveEach encoder).after s es).users i row⟩)) :
    AccountInv encoder s account plain (es ++ [(i, call)]) := by
  have hok : (saveEach encoder ((saveEach encoder).after s es) (i, call)).1.isOk = true := by
    rw [h]
    rfl
  have husers := hinv.users_update (i := i) haccount hpassword
  have hselect := selectByAccount_of_rows account hrows
  have hrow : row.account = some account ↔ (s.users i).account = some account := by
    rw [haccount, hinv.account_eq i]
  refine ⟨fun j => ?_, fun j => ?_, ?_, fun pre j call' hj => ?_, fun row' hrow' => ?_⟩
  · rw [StepMachine.after_snoc, h]
    exact (husers j).1
  · rw [StepMachine.after_snoc, h]
    exact (husers j).2
  · rw [StepMachine.after_snoc, storedCount_snoc, h, hselect, List.length_append, hinv.length_eq]
    by_cases hi : (s.users i).account = some account
    · rw [if_pos (hrow.mpr hi), if_pos ⟨hi, rfl⟩, List.length_singleton]
    · rw [if_neg (fun hr => hi (hrow.mp hr)), if_neg (fun hr => hi hr.1), List.length_nil]
  · rw [StepMachine.after_snoc, h, hselect]
    obtain hj | ⟨rfl, hp, hi, -⟩ := stored_snoc_iff.mp hj
    · obtain ⟨row', hmem, hrowPassword⟩ := hinv.exists_row pre j call' hj
      exact ⟨row', List.mem_append_left _ hmem, hrowPassword⟩
    · obtain ⟨rfl, rfl⟩ := Prod.mk.inj hp
      refine ⟨row, List.mem_append_right _ ?_, hpassword⟩
      rw [if_pos (hrow.mpr hi)]
      exact List.mem_singleton_self row
  · rw [StepMachine.after_snoc, h, hselect] at hrow'
    obtain hrow' | hrow' := List.mem_append.mp hrow'
    · obtain ⟨pre, j, call', hj, hrowPassword⟩ := hinv.exists_save row' hrow'
      exact ⟨pre, j, call', stored_snoc_iff.mpr (Or.inl hj), hrowPassword⟩
    · split at hrow'
      · next hi =>
        rw [List.mem_singleton.mp hrow']
        have hnew := stored_snoc_iff.mpr (Or.inr ⟨rfl, rfl, hrow.mp hi, hok⟩)
        exact ⟨es, i, call, hnew, hpassword⟩
      · exact absurd hrow' List.not_mem_nil

/-- **The saves of any number of objects keep the invariant.** -/
theorem accountInv (hplain : ∀ i, (s.users i).password = some (plain i))
    (hnew : s.db.selectByAccount (some account) = []) (es : List (ι × SaveCall σ)) :
    AccountInv encoder s account plain es := by
  induction es using List.reverseRecOn with
  | nil => exact accountInv_nil hplain hnew
  | append_singleton es p ih =>
    obtain ⟨i, call⟩ := p
    obtain ⟨e, h⟩ | ⟨db, row, h, hrows, haccount, hpassword⟩ :=
      saveAndEncode_cases encoder
        ⟨((saveEach encoder).after s es).db, ((saveEach encoder).after s es).users i⟩ call
        (ih.password_eq i)
    · refine ih.throws ?_ ?_ (saveEach_eq h)
      · rfl
      · rfl
    · exact ih.returns hrows haccount hpassword (saveEach_eq h)

/-- No later save takes one away that has returned. -/
theorem storedCount_le_of_prefix (h : pre <+: es) :
    storedCount encoder s account pre ≤ storedCount encoder s account es := by
  obtain ⟨later, rfl⟩ := h
  induction later using List.reverseRecOn with
  | nil => rw [List.append_nil]
  | append_singleton later p ih =>
    rw [← List.append_assoc, storedCount_snoc]
    exact ih.trans (Nat.le_add_right _ _)

/-- An account is known by a row exactly if that is its only one. -/
theorem getUserByAccount_eq_iff {db : UserTable} {u : User} :
    db.getUserByAccount (some account) = .ok (some u)
      ↔ db.selectByAccount (some account) = [u] := by
  unfold UserTable.getUserByAccount
  match db.selectByAccount (some account) with
  | [] => simp
  | [v] => simp
  | v :: v' :: rows => simp

/-- Two users, and an empty table. -/
def twoUsers : Registrations Bool where
  db := ⟨[], by simp, List.nodup_nil⟩
  users := fun b => ⟨none, none, some (if b then "1004" else "1005"), some "123456"⟩

end UserServiceImpl
