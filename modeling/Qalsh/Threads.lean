/-
  Threads.lean --- the number of build threads changes nothing but the time.

  `SortTables` is safe whatever its threads do, and it hands the same tables to what
  comes after it.  So the tables in memory and every call that writes a file are those
  of a build with a single thread.
-/
import Qalsh.TreeBuild

set_option autoImplicit false

namespace Qalsh

open Foundation

/-! ## Whole builds -/

/-- `ThreadsAgree` for a build that also makes system calls: the calls, their bytes and
their order are the same. -/
def RunsAgree (build : Scheduler → Nat → Process Error Unit) : Prop :=
  ∀ (scheduler scheduler' : Scheduler) (threads : Nat), 0 < threads → threads ≤ 1024 →
    build scheduler threads = build scheduler' 1 ∨
      ∃ tables e, SortTables threads tables (.error e) ∧ build scheduler threads = halt e

/-- What is written is determined by what has been prepared. -/
theorem ThreadsAgree.runsAgree {α : Type} {prepare : Scheduler → Nat → Except Error α}
    (h : ThreadsAgree prepare) (write : α → Process Error Unit) :
    RunsAgree fun scheduler threads => check (prepare scheduler threads) >>= write := by
  intro scheduler scheduler' threads hpos hle
  obtain heq | ⟨tables, e, hthrown, heq⟩ := h scheduler scheduler' threads hpos hle
  · exact Or.inl (congrArg (fun prepared => check prepared >>= write) heq)
  · exact Or.inr ⟨tables, e, hthrown, congrArg (fun prepared => check prepared >>= write) heq⟩

theorem SortedArrayIndex.runsAgree [Platform] (path temporaryPath : String) (config : IndexConfig)
    (accessor : Option PointAccessor) (pageSize : Nat) (overwrite : Bool) :
    RunsAgree fun scheduler threads => SortedArrayIndex.build scheduler path temporaryPath
      { config with buildThreads := threads } accessor pageSize overwrite :=
  (SortedArrayIndex.threadsAgree path config accessor pageSize).runsAgree fun layout =>
    SortedArrayIndex.writeFile layout path temporaryPath overwrite

theorem BPlusTreeIndex.runsAgree [Platform] (path temporaryPath : String) (config : IndexConfig)
    (accessor : Option PointAccessor) (pageSize : Nat) (overwrite : Bool) :
    RunsAgree fun scheduler threads => BPlusTreeIndex.build scheduler path temporaryPath
      { config with buildThreads := threads } accessor pageSize overwrite :=
  (BPlusTreeIndex.threadsAgree path config accessor pageSize).runsAgree fun layout =>
    BPlusTreeIndex.writeFile layout path temporaryPath overwrite

/-! ## The result -/

end Qalsh
