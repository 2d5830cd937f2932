import Mathlib.Data.List.Nodup
import Mathlib.Data.List.Perm.Basic

set_option autoImplicit false

-- An item is offered to a list of waiters. Each waiter accepts it or not, and some of those that
-- accept it take it away; the others only look.
namespace Waiters

universe u v

variable {ω : Type u} {ι : Type v}

structure Served (ω : Type u) where
  answered : List ω
  rest : List ω
  taken : Bool

-- Everyone who accepts the item is answered in list order, up to the first who takes it.
def serve (accepts takes : ω → Bool) : List ω → Served ω
  | [] => ⟨[], [], false⟩
  | waiter :: later =>
      if accepts waiter then
        if takes waiter then ⟨[waiter], later, true⟩
        else ⟨waiter :: (serve accepts takes later).answered, (serve accepts takes later).rest,
          (serve accepts takes later).taken⟩
      else ⟨(serve accepts takes later).answered, waiter :: (serve accepts takes later).rest,
        (serve accepts takes later).taken⟩

-- Nobody who accepts the item stands behind the first who takes it.
def lastTaker (accepts takes : ω → Bool) : List ω → Bool
  | [] => true
  | waiter :: later =>
      if accepts waiter && takes waiter then later.all fun other => !accepts other
      else lastTaker accepts takes later

variable (accepts takes : ω → Bool)

theorem serve_none (list : List ω) (refuse : ∀ waiter ∈ list, accepts waiter = false) :
    serve accepts takes list = ⟨[], list, false⟩ := by
  induction list with
  | nil => rfl
  | cons waiter later ih =>
      have head := refuse waiter (by simp)
      simp [serve, head, ih (fun other member => refuse other (by simp [member]))]

-- Serving one at a time: the first who accepts is found, removed and answered, and the search starts again.
theorem serve_look (before after : List ω) (waiter : ω) (refuse : ∀ other ∈ before, accepts other = false)
    (accepted : accepts waiter = true) (looks : takes waiter = false) :
    serve accepts takes (before ++ waiter :: after) =
      ⟨waiter :: (serve accepts takes (before ++ after)).answered, (serve accepts takes (before ++ after)).rest,
        (serve accepts takes (before ++ after)).taken⟩ := by
  induction before with
  | nil => simp [serve, accepted, looks]
  | cons other before ih =>
      have head := refuse other (by simp)
      simp [serve, head, ih (fun o member => refuse o (by simp [member]))]

theorem serve_take (before after : List ω) (waiter : ω) (refuse : ∀ other ∈ before, accepts other = false)
    (accepted : accepts waiter = true) (takesIt : takes waiter = true) :
    serve accepts takes (before ++ waiter :: after) = ⟨[waiter], before ++ after, true⟩ := by
  induction before with
  | nil => simp [serve, accepted, takesIt]
  | cons other before ih =>
      have head := refuse other (by simp)
      simp [serve, head, ih (fun o member => refuse o (by simp [member]))]

theorem serve_perm (list : List ω) :
    ((serve accepts takes list).answered ++ (serve accepts takes list).rest).Perm list := by
  induction list with
  | nil => exact List.Perm.refl _
  | cons waiter later ih =>
      unfold serve
      split
      · split
        · exact List.Perm.refl _
        · exact ih.cons waiter
      · exact List.perm_middle.trans (ih.cons waiter)

theorem serve_rest_sublist (list : List ω) : (serve accepts takes list).rest.Sublist list := by
  induction list with
  | nil => exact List.Sublist.refl _
  | cons waiter later ih =>
      unfold serve
      split
      · split
        · exact List.sublist_cons_self waiter later
        · exact ih.trans (List.sublist_cons_self waiter later)
      · exact ih.cons_cons waiter

-- The front of a list up to and including the first who takes.
def throughFirst (takes : ω → Bool) : List ω → List ω
  | [] => []
  | waiter :: later => if takes waiter then [waiter] else waiter :: throughFirst takes later

theorem serve_answered (list : List ω) : (serve accepts takes list).answered = throughFirst takes (list.filter accepts) := by
  induction list with
  | nil => rfl
  | cons waiter later ih =>
      unfold serve
      by_cases accepted : accepts waiter = true
      · rw [if_pos accepted, List.filter_cons_of_pos accepted, throughFirst]
        split
        · rfl
        · rw [ih]
      · rw [if_neg accepted, List.filter_cons_of_neg accepted, ih]

theorem serve_answered_taken (list : List ω) : (serve accepts takes list).answered.any takes = (serve accepts takes list).taken := by
  induction list with
  | nil => rfl
  | cons waiter later ih =>
      unfold serve
      split
      · split
        · rename_i takesIt
          simp [takesIt]
        · rename_i looks
          simpa [looks] using ih
      · exact ih

theorem serve_takers (list : List ω) :
    (serve accepts takes list).answered.countP takes = if (serve accepts takes list).taken then 1 else 0 := by
  induction list with
  | nil => rfl
  | cons waiter later ih =>
      unfold serve
      split
      · split
        · rename_i takesIt
          simp [takesIt]
        · rename_i looks
          simpa [looks] using ih
      · exact ih

theorem serve_reaches (before after : List ω) (waiter : ω) (accepted : accepts waiter = true)
    (untaken : ∀ other ∈ before, accepts other = true → takes other = false) :
    waiter ∈ (serve accepts takes (before ++ waiter :: after)).answered := by
  induction before with
  | nil =>
      rw [List.nil_append]
      unfold serve
      rw [if_pos accepted]
      split <;> simp
  | cons other before ih =>
      have rest := ih fun one member => untaken one (by simp [member])
      rw [List.cons_append]
      unfold serve
      split
      · rename_i accepting
        rw [untaken other (by simp) accepting, if_neg (by simp)]
        exact List.mem_cons_of_mem _ rest
      · exact rest

theorem serve_taken (list : List ω) :
    (serve accepts takes list).taken = list.any fun waiter => accepts waiter && takes waiter := by
  induction list with
  | nil => rfl
  | cons waiter later ih =>
      rw [List.any_cons]
      unfold serve
      split
      · rename_i accepted
        split
        · rename_i takesIt
          simp [accepted, takesIt]
        · rename_i looks
          simpa [looks] using ih
      · rename_i refused
        simpa [refused] using ih

theorem serve_untaken_refuse (list : List ω) (untaken : (serve accepts takes list).taken = false) :
    ∀ waiter ∈ (serve accepts takes list).rest, accepts waiter = false := by
  induction list with
  | nil => simp [serve]
  | cons waiter later ih =>
      unfold serve at untaken ⊢
      split at untaken
      · rename_i accepted
        split at untaken
        · simp at untaken
        · rename_i looks
          rw [if_pos accepted, if_neg looks]
          exact ih untaken
      · rename_i refused
        rw [if_neg refused]
        intro other member
        rcases List.mem_cons.mp member with same | inLater
        · exact same ▸ Bool.eq_false_iff.mpr refused
        · exact ih untaken other inLater

theorem serve_rest_filter [DecidableEq ω] (list : List ω) (unique : list.Nodup) :
    (serve accepts takes list).rest = list.filter fun waiter => decide (waiter ∉ (serve accepts takes list).answered) := by
  induction list with
  | nil => rfl
  | cons waiter later ih =>
      obtain ⟨fresh, uniqueLater⟩ := List.nodup_cons.mp unique
      have notAnswered : waiter ∉ (serve accepts takes later).answered := fun member =>
        fresh ((serve_perm accepts takes later).subset (List.mem_append_left _ member))
      have kept : ∀ answered : List ω, later.filter (fun other => decide (other ∉ waiter :: answered)) =
          later.filter fun other => decide (other ∉ answered) := fun answered =>
        List.filter_congr fun other member => by
          have different : other ≠ waiter := fun same => fresh (same ▸ member)
          simp [different]
      unfold serve
      split
      · split
        · have all := kept []
          simp only [List.not_mem_nil, not_false_eq_true, decide_true, List.filter_true] at all
          rw [List.filter_cons, if_neg (by simp)]
          exact all.symm
        · simp only [List.filter_cons, List.mem_cons, true_or, not_true_eq_false, decide_false, Bool.false_eq_true,
            if_false]
          rw [ih uniqueLater]
          simpa only [List.mem_cons] using (kept (serve accepts takes later).answered).symm
      · rw [List.filter_cons, if_pos (by simpa using notAnswered), ih uniqueLater]

-- Removing one more who accepts it changes nothing exactly when nobody stands behind the taker.
theorem extra_removal_iff (list : List ω) :
    (if (serve accepts takes list).taken then (serve accepts takes list).rest.eraseP accepts
      else (serve accepts takes list).rest) = (serve accepts takes list).rest ↔
      lastTaker accepts takes list = true := by
  induction list with
  | nil => simp [serve, lastTaker]
  | cons waiter later ih =>
      by_cases accepted : accepts waiter = true
      · by_cases takesIt : takes waiter = true
        · simp only [serve, lastTaker, accepted, takesIt, if_true, Bool.and_self, List.all_eq_true,
            Bool.not_eq_true']
          constructor
          · intro same other member
            by_contra accepting
            have shorter := List.length_eraseP_of_mem member (by simpa using accepting)
            have positive : 0 < later.length := List.length_pos_of_mem member
            rw [same] at shorter
            omega
          · intro refuse
            exact List.eraseP_of_forall_not fun other member => by simp [refuse other member]
        · simpa [serve, lastTaker, accepted, takesIt] using ih
      · simp only [serve, lastTaker, accepted, Bool.false_eq_true, if_false, Bool.false_and]
        rw [← ih]
        cases (serve accepts takes later).taken with
        | false => simp
        | true => simp [accepted]

-- No waiter accepts an item that is still there.
def Settled (accepts : ω → ι → Bool) (items : List ι) (waiting : List ω) : Prop :=
  ∀ waiter ∈ waiting, ∀ item ∈ items, accepts waiter item = false

theorem settled_fewer (accepts : ω → ι → Bool) (items left : List ι) (waiting rest : List ω)
    (settled : Settled accepts items waiting) (itemsKept : left ⊆ items) (waitersKept : rest ⊆ waiting) :
    Settled accepts left rest :=
  fun waiter member item present => settled waiter (waitersKept member) item (itemsKept present)

theorem settled_wait (accepts : ω → ι → Bool) (items : List ι) (waiting : List ω) (waiter : ω)
    (settled : Settled accepts items waiting) (refused : ∀ item ∈ items, accepts waiter item = false) :
    Settled accepts items (waiting ++ [waiter]) := by
  intro other member
  rcases List.mem_append.mp member with old | new
  · exact settled other old
  · rw [List.mem_singleton.mp new]
    exact refused

theorem settled_offer (accepts : ω → ι → Bool) (takes : ω → Bool) (items : List ι) (waiting : List ω) (item : ι)
    (settled : Settled accepts items waiting) (untaken : (serve (accepts · item) takes waiting).taken = false) :
    Settled accepts (items ++ [item]) (serve (accepts · item) takes waiting).rest := by
  intro waiter member other present
  rcases List.mem_append.mp present with old | new
  · exact settled waiter ((serve_rest_sublist _ takes waiting).subset member) other old
  · rw [List.mem_singleton.mp new]
    exact serve_untaken_refuse (accepts · item) takes waiting untaken waiter member

end Waiters
