/-
Pages of an ordered query.

Each page is a query of its own, and an order that does not tell two rows apart lets each query put
them as it likes.  A page boundary that falls between two groups of equal rows cuts every answer
into the same two sets, whatever the order within the groups; one that falls inside a group can be
answered with a row of the group on either side.  So the pages are a partition, whatever the
answers, exactly if no boundary falls inside a group.
-/
import Mathlib.Data.List.Count
import Mathlib.Data.List.Sort
import Mathlib.Data.List.Nodup
import Mathlib.Data.List.Perm.Basic

namespace Paging

section Order

variable {R K : Type*} [LinearOrder K]

/-- An answer to `SELECT … ORDER BY key`. -/
def AnswerTo (key : R → K) (rows answer : List R) : Prop :=
  answer.Perm rows ∧ answer.Pairwise fun a b => key a ≤ key b

/-- The rows before a row, whatever the answer. -/
def before (key : R → K) (rows : List R) (r : R) : Nat := rows.countP fun a => decide (key a < key r)

/-- The rows up to the last that is equal to it. -/
def upTo (key : R → K) (rows : List R) (r : R) : Nat := rows.countP fun a => decide (key a ≤ key r)

/-- A boundary falls inside a group of equal rows. -/
def Cuts (key : R → K) (rows : List R) (boundary : Nat) : Prop :=
  ∃ r ∈ rows, before key rows r < boundary ∧ boundary < upTo key rows r

/-- `OFFSET i * limit LIMIT limit`. -/
def page (limit i : Nat) (answer : List R) : List R := (answer.drop (i * limit)).take limit

/-- The first `n` pages, each of an answer of its own. -/
def pages (limit n : Nat) (answers : Nat → List R) : List R :=
  (List.range n).flatMap fun i => page limit i (answers i)

variable {key : R → K} {rows answer : List R}

theorem AnswerTo.upTo_eq (h : AnswerTo key rows answer) (r : R) :
    upTo key answer r = upTo key rows r :=
  h.1.countP_eq _

theorem AnswerTo.before_eq (h : AnswerTo key rows answer) (r : R) :
    before key answer r = before key rows r :=
  h.1.countP_eq _

theorem upTo_le_length (r : R) : upTo key rows r ≤ rows.length := List.countP_le_length

/-! ### A boundary between two groups -/

/-- The rows that a boundary leaves behind it. -/
def within (key : R → K) (rows : List R) (boundary : Nat) : List R :=
  rows.filter fun r => decide (upTo key rows r ≤ boundary)

/-- **A boundary between two groups** cuts every answer in the same way. -/
theorem take_perm (h : AnswerTo key rows answer) {boundary : Nat} (hcut : ¬ Cuts key rows boundary) :
    (answer.take boundary).Perm (within key rows boundary) := by
  have hlength : (answer.take boundary).length = min boundary answer.length := List.length_take
  have hdropped : (answer.drop boundary).length = answer.length - boundary := List.length_drop
  have hsorted := h.2
  have hperm := h.1
  rw [← List.take_append_drop boundary answer] at hsorted hperm
  generalize answer.take boundary = first at hsorted hperm hlength ⊢
  generalize answer.drop boundary = last at hsorted hperm hdropped
  obtain ⟨-, -, hacross⟩ := List.pairwise_append.mp hsorted
  have hfirst : ∀ a ∈ first, upTo key rows a ≤ boundary := by
    intro a ha
    by_contra hlate
    refine hcut ⟨a, hperm.mem_iff.mp (List.mem_append_left _ ha), ?_, Nat.lt_of_not_le hlate⟩
    have hnone : last.countP (fun b => decide (key b < key a)) = 0 :=
      List.countP_eq_zero.mpr fun b hb => by simpa using hacross a ha b hb
    have hless : first.countP (fun b => decide (key b < key a)) < first.length :=
      List.countP_lt_length_iff.mpr ⟨a, ha, by simp⟩
    have hcount : before key rows a = _ := (hperm.countP_eq _).symm
    rw [hcount, List.countP_append, hnone]
    omega
  have hlast : ∀ b ∈ last, boundary < upTo key rows b := by
    intro b hb
    have hall : first.countP (fun a => decide (key a ≤ key b)) = first.length :=
      List.countP_eq_length.mpr fun a ha => decide_eq_true (hacross a ha b hb)
    have hsome : 0 < last.countP fun a => decide (key a ≤ key b) :=
      List.countP_pos_iff.mpr ⟨b, hb, decide_eq_true le_rfl⟩
    have hpos := List.length_pos_of_mem hb
    have hcount : upTo key rows b = _ := (hperm.countP_eq _).symm
    rw [hcount, List.countP_append, hall]
    omega
  refine List.Perm.trans (List.Perm.of_eq ?_) (hperm.filter _)
  rw [List.filter_append, List.filter_eq_self.mpr fun a ha => decide_eq_true (hfirst a ha),
    List.filter_eq_nil_iff.mpr fun b hb => by simpa using hlast b hb, List.append_nil]

/-! ### Pages -/

theorem pages_succ (limit n : Nat) (answers : Nat → List R) :
    pages limit (n + 1) answers = pages limit n answers ++ page limit n (answers n) := by
  unfold pages
  rw [List.range_succ, List.flatMap_append, List.flatMap_singleton]

/-- The pages of one answer are its beginning. -/
theorem pages_const (limit n : Nat) (answer : List R) :
    pages limit n (fun _ => answer) = answer.take (n * limit) := by
  induction n with
  | zero => simp [pages]
  | succ n ih =>
      rw [pages_succ, ih, Nat.succ_mul, List.take_add]
      rfl

/-- What an answer has up to the end of a page is what it has before the page and the page. -/
theorem take_succ_page (limit n : Nat) (answer : List R) :
    answer.take ((n + 1) * limit) = answer.take (n * limit) ++ page limit n answer := by
  rw [Nat.succ_mul, List.take_add]
  rfl

/-- **The first pages** have the rows that their last boundary leaves behind it. -/
theorem pages_perm_within {limit : Nat} {answers : Nat → List R}
    (hanswers : ∀ i, AnswerTo key rows (answers i)) (hcut : ∀ i, ¬ Cuts key rows (i * limit)) (n : Nat) :
    (pages limit n answers).Perm (within key rows (n * limit)) := by
  induction n with
  | zero =>
      have hfirst := take_perm (hanswers 0) (hcut 0)
      rw [Nat.zero_mul, List.take_zero] at hfirst
      rw [Nat.zero_mul]
      exact hfirst
  | succ n ih =>
      have hnext := take_perm (hanswers n) (hcut (n + 1))
      rw [take_succ_page] at hnext
      rw [pages_succ]
      exact ((ih.trans (take_perm (hanswers n) (hcut n)).symm).append_right _).trans hnext

/-- A boundary at the end leaves everything behind it. -/
theorem within_of_length_le {boundary : Nat} (h : rows.length ≤ boundary) :
    within key rows boundary = rows :=
  List.filter_eq_self.mpr fun r _ => decide_eq_true (Nat.le_trans (upTo_le_length r) h)

/-! ### A boundary inside a group -/

theorem answers_insertionSort (key : R → K) (rows : List R) :
    AnswerTo key rows (rows.insertionSort fun a b => key a ≤ key b) :=
  haveI : Std.Total fun a b : R => key a ≤ key b := ⟨fun a b => le_total (key a) (key b)⟩
  haveI : IsTrans R fun a b => key a ≤ key b := ⟨fun _ _ _ => le_trans⟩
  ⟨List.perm_insertionSort _ _, List.pairwise_insertionSort _ _⟩

/-- The rows on either side of the boundary are equal. -/
theorem exists_split_of_cuts (h : AnswerTo key rows answer) {boundary : Nat}
    (hcut : Cuts key rows boundary) :
    ∃ first x y last, answer = first ++ x :: y :: last ∧ first.length + 1 = boundary ∧
      key x = key y := by
  obtain ⟨r, -, hbefore, hupTo⟩ := hcut
  rw [← h.before_eq] at hbefore
  rw [← h.upTo_eq] at hupTo
  obtain ⟨n, rfl⟩ : ∃ n, boundary = n + 1 := ⟨boundary - 1, by omega⟩
  have hlt : n + 1 < answer.length := Nat.lt_of_lt_of_le hupTo (upTo_le_length r)
  have hsplit : answer = answer.take n ++ answer[n] :: answer[n + 1] :: answer.drop (n + 2) := by
    rw [← List.drop_eq_getElem_cons, ← List.drop_eq_getElem_cons, List.take_append_drop]
  have hlength : (answer.take n).length = n := by
    rw [List.length_take]
    omega
  refine ⟨answer.take n, answer[n], answer[n + 1], answer.drop (n + 2), hsplit, by rw [hlength], ?_⟩
  have hsorted := h.2
  unfold before at hbefore
  unfold upTo at hupTo
  generalize answer[n] = x at *
  generalize answer[n + 1] = y at *
  generalize answer.take n = first at *
  generalize answer.drop (n + 2) = last at *
  subst hsplit
  obtain ⟨-, htail, hacross⟩ := List.pairwise_append.mp hsorted
  obtain ⟨hx, hrest⟩ := List.pairwise_cons.mp htail
  obtain ⟨hy, -⟩ := List.pairwise_cons.mp hrest
  have hrx : key r ≤ key x := by
    by_contra hless
    have hlow : first.countP (fun a => decide (key a < key r)) = first.length :=
      List.countP_eq_length.mpr fun a ha =>
        decide_eq_true (lt_of_le_of_lt (hacross a ha x List.mem_cons_self) (lt_of_not_ge hless))
    rw [List.countP_append, hlow, List.countP_cons, if_pos (decide_eq_true (lt_of_not_ge hless))]
      at hbefore
    omega
  have hyr : key y ≤ key r := by
    by_contra hmore
    have hhigh : (y :: last).countP (fun a => decide (key a ≤ key r)) = 0 := by
      refine List.countP_eq_zero.mpr fun a ha => ?_
      rw [decide_eq_true_iff]
      rcases List.mem_cons.mp ha with rfl | ha
      · exact hmore
      · exact fun hle => hmore (le_trans (hy a ha) hle)
    have hfirst : first.countP (fun a => decide (key a ≤ key r)) ≤ first.length :=
      List.countP_le_length
    rw [List.countP_append, List.countP_cons, hhigh] at hupTo
    split at hupTo
    all_goals omega
  exact le_antisymm (hx y List.mem_cons_self) (hyr.trans hrx)

/-- Two equal neighbours may come the other way round. -/
theorem AnswerTo.swap {first last : List R} {x y : R} (hxy : key x = key y)
    (h : AnswerTo key rows (first ++ x :: y :: last)) :
    AnswerTo key rows (first ++ y :: x :: last) := by
  refine ⟨((List.Perm.swap x y last).append_left first).trans h.1, ?_⟩
  have hkeys : (first ++ y :: x :: last).map key = (first ++ x :: y :: last).map key := by
    rw [List.map_append, List.map_append, List.map_cons, List.map_cons, List.map_cons, List.map_cons,
      hxy]
  have hsorted := List.pairwise_map.mpr h.2
  rw [← hkeys] at hsorted
  exact List.pairwise_map.mp hsorted

/-- What two answers make of the pages when the second comes after page `i`. -/
theorem pages_switch (limit : Nat) {i n : Nat} (hle : i ≤ n) (a b : List R) :
    (pages limit n (fun j => if j < i then a else b) ++ b.take (i * limit)).Perm
      (a.take (i * limit) ++ b.take (n * limit)) := by
  induction n, hle using Nat.le_induction with
  | base =>
      have hfirst : pages limit i (fun j => if j < i then a else b) = a.take (i * limit) := by
        rw [← pages_const]
        unfold pages
        refine List.flatMap_congr fun j hj => ?_
        dsimp only
        rw [if_pos (List.mem_range.mp hj)]
      rw [hfirst]
  | succ n hle ih =>
      rw [pages_succ, if_neg (Nat.not_lt_of_le hle), take_succ_page limit n b, ← List.append_assoc]
      refine List.Perm.trans ?_ (ih.append_right _)
      rw [List.append_assoc, List.append_assoc]
      exact List.perm_append_comm.append_left _

/-- **A boundary inside a group** can be answered with a row twice. -/
theorem exists_answers_of_cuts (hnodup : rows.Nodup) {limit i n : Nat}
    (hcut : Cuts key rows (i * limit)) (hall : rows.length ≤ n * limit) :
    ∃ answers : Nat → List R, (∀ j, AnswerTo key rows (answers j)) ∧
      ¬ (pages limit n answers).Perm rows := by
  obtain ⟨first, x, y, last, hsplit, hlength, hxy⟩ :=
    exists_split_of_cuts (answers_insertionSort key rows) hcut
  have hanswer := answers_insertionSort key rows
  rw [hsplit] at hanswer
  have hswapped := hanswer.swap hxy
  refine ⟨fun j => if j < i then first ++ x :: y :: last else first ++ y :: x :: last,
    fun j => ?_, fun hperm => ?_⟩
  · dsimp only
    split
    · exact hanswer
    · exact hswapped
  · have hle : i ≤ n := by
      obtain ⟨r, -, -, hupTo⟩ := hcut
      have hlt := Nat.lt_of_lt_of_le (Nat.lt_of_lt_of_le hupTo (upTo_le_length r)) hall
      exact Nat.le_of_lt (Nat.lt_of_mul_lt_mul_right hlt)
    have hswitch := pages_switch limit hle (first ++ x :: y :: last) (first ++ y :: x :: last)
    have hwhole : (first ++ y :: x :: last).take (n * limit) = first ++ y :: x :: last :=
      List.take_of_length_le (hswapped.1.length_eq ▸ hall)
    have hx : (first ++ x :: y :: last).take (i * limit) = first ++ [x] := by
      rw [← hlength, List.take_length_add_append]
      rfl
    have hy : (first ++ y :: x :: last).take (i * limit) = first ++ [y] := by
      rw [← hlength, List.take_length_add_append]
      rfl
    rw [hwhole, hx, hy] at hswitch
    have hsame := (((hperm.trans hswapped.1.symm).append_right (first ++ [y])).symm.trans
      hswitch).trans List.perm_append_comm
    have hlast := (List.perm_append_left_iff _).mp ((List.perm_append_left_iff _).mp hsame)
    obtain ⟨-, htail, -⟩ := List.nodup_append.mp (hanswer.1.nodup_iff.mpr hnodup)
    obtain rfl : y = x := List.singleton_perm_singleton.mp hlast
    exact (List.nodup_cons.mp htail).1 List.mem_cons_self

/-- **When the pages are a partition**: whatever the answers, exactly if no boundary falls inside a
group of equal rows. -/
theorem pages_perm_iff (hnodup : rows.Nodup) {limit n : Nat} (hall : rows.length ≤ n * limit) :
    (∀ answers : Nat → List R, (∀ i, AnswerTo key rows (answers i)) →
        (pages limit n answers).Perm rows) ↔
      ∀ i, ¬ Cuts key rows (i * limit) := by
  constructor
  · intro hpartition i hcut
    obtain ⟨answers, hanswers, hnot⟩ := exists_answers_of_cuts hnodup hcut hall
    exact hnot (hpartition answers hanswers)
  · intro hcut answers hanswers
    have hperm := pages_perm_within hanswers hcut n
    rwa [within_of_length_le hall] at hperm

end Order

end Paging
