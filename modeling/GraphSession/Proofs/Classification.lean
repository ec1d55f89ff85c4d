import GraphSession.Fault.Basic

/-!
  Which faults are worth another attempt.

  The documented rule goes by the classification of the server's code, the part behind `Neo.`: a
  failure passes by itself when its code begins with `Neo.TransientError.`, two terminations that
  the client asked for apart, and three codes of client errors pass as well.  `IsPassing` is that
  rule.  What is tried again in fact goes by the same text without its last dot, so exactly the
  codes that go on after `Neo.TransientError` with no dot are tried again against the rule.

  A failure that becomes a fault may lose its code, but only to a kind that answers as its code did.
-/

namespace GraphSession

/-- To begin with a text is to be that text and more. -/
theorem beginsWith_iff {start text : String} :
    beginsWith start text = true ↔ ∃ rest, text = start ++ rest := by
  rw [beginsWith, List.isPrefixOf_iff_prefix]
  constructor
  · rintro ⟨rest, split⟩
    refine ⟨String.ofList rest, String.toList_injective ?_⟩
    rw [String.toList_append, String.toList_ofList, split]
  · rintro ⟨rest, rfl⟩
    exact ⟨rest.toList, (String.toList_append).symm⟩

namespace ServerFailure

/-- The documented rule: the failure passes by itself, so that another attempt may succeed. -/
def IsPassing (f : ServerFailure) : Prop :=
  ((∃ rest, f.code = "Neo.TransientError." ++ rest) ∧
    f.code ≠ "Neo.TransientError.Transaction.Terminated" ∧
    f.code ≠ "Neo.TransientError.Transaction.LockClientStopped") ∨
  f.code = "Neo.ClientError.Cluster.NotALeader" ∨
  f.code = "Neo.ClientError.General.ForbiddenOnReadOnlyDatabase" ∨
  f.code = "Neo.ClientError.Security.AuthorizationExpired"

/-- The code goes on after the name of the passing errors without a dot, so its classification is
    another one. -/
def IsUndotted (f : ServerFailure) : Prop :=
  ∃ rest, f.code = "Neo.TransientError" ++ rest ∧ rest.toList.head? ≠ some '.'

/-- The name of the passing errors and the dot behind it. -/
theorem dotted_eq : "Neo.TransientError." = "Neo.TransientError" ++ "." := rfl

variable {f : ServerFailure}

/-- A text that begins with the name of the passing errors goes on with a dot or does not. -/
theorem isTransientError_iff : f.isTransientError = true ↔
    (∃ rest, f.code = "Neo.TransientError." ++ rest) ∨ f.IsUndotted := by
  rw [isTransientError, beginsWith_iff]
  constructor
  · rintro ⟨rest, code⟩
    by_cases dot : rest.toList.head? = some '.'
    · obtain ⟨more, split⟩ := List.head?_eq_some_iff.mp dot
      refine .inl ⟨String.ofList more, String.toList_injective ?_⟩
      rw [code, dotted_eq, String.append_assoc]
      simp only [String.toList_append, String.toList_ofList, split]
      rfl
    · exact .inr ⟨rest, code, dot⟩
  · rintro (⟨rest, code⟩ | ⟨rest, code, -⟩)
    · exact ⟨"." ++ rest, by rw [code, dotted_eq, String.append_assoc]⟩
    · exact ⟨rest, code⟩

/-- None of the codes that decide first goes on without a dot. -/
theorem IsUndotted.ne_of_dotted (h : f.IsUndotted) (rest : String) :
    f.code ≠ "Neo.TransientError." ++ rest := by
  obtain ⟨more, code, noDot⟩ := h
  intro dotted
  apply noDot
  rw [code, dotted_eq, String.append_assoc] at dotted
  have same := congrArg String.toList dotted
  rw [String.toList_append, String.toList_append] at same
  rw [List.append_cancel_left same, String.toList_append]
  rfl

/-- A failure is tried again by the documented rule, or because its code lacks the dot. -/
theorem isRetryable_iff : f.isRetryable = true ↔ f.IsPassing ∨ f.IsUndotted := by
  have terminated : f.IsUndotted → f.code ≠ "Neo.TransientError.Transaction.Terminated" :=
    fun h => h.ne_of_dotted "Transaction.Terminated"
  have stopped : f.IsUndotted → f.code ≠ "Neo.TransientError.Transaction.LockClientStopped" :=
    fun h => h.ne_of_dotted "Transaction.LockClientStopped"
  unfold isRetryable
  split
  · -- a termination: no other list has its code
    next listed =>
    simp only [terminationCodes, List.contains_iff_mem, List.mem_cons, List.not_mem_nil,
      or_false] at listed
    constructor
    · intro h
      cases h
    · rintro ((⟨-, notTerminated, notStopped⟩ | client) | undotted)
      · exact absurd listed (by simp [notTerminated, notStopped])
      · rcases listed with code | code <;> rw [code] at client <;> revert client <;> decide
      · exact absurd listed (by simp [terminated undotted, stopped undotted])
  · next unlisted =>
    simp only [terminationCodes, List.contains_iff_mem, List.mem_cons, List.not_mem_nil,
      or_false, not_or] at unlisted
    split
    · next listed =>
      simp only [passingClientCodes, List.contains_iff_mem, List.mem_cons, List.not_mem_nil,
        or_false] at listed
      exact iff_of_true rfl (.inl (.inr listed))
    · next unpassing =>
      simp only [passingClientCodes, List.contains_iff_mem, List.mem_cons, List.not_mem_nil,
        or_false] at unpassing
      rw [isTransientError_iff]
      constructor
      · rintro (dotted | undotted)
        · exact .inl (.inl ⟨dotted, unlisted⟩)
        · exact .inr undotted
      · rintro ((⟨dotted, -⟩ | client) | undotted)
        · exact .inl dotted
        · exact absurd client unpassing
        · exact .inr undotted

/-- A failed authentication is a client error and not one that passes. -/
theorem isAuthenticationError_answers (h : f.isAuthenticationError = true) :
    f.isClientError = true ∧ f.isRetryable = false := by
  unfold isClientError isRetryable isTransientError
  simp only [isAuthenticationError, authenticationCodes, List.contains_iff_mem, List.mem_cons,
    List.not_mem_nil, or_false] at h
  rcases h with code | code | code | code <;> rw [code] <;> decide

/-- The fault that is made of a failure answers as the failure does. -/
theorem toFault_answers (f : ServerFailure) :
    f.toFault.isRetryable = f.isRetryable ∧ f.toFault.isClientError = f.isClientError := by
  unfold toFault
  split
  · next authentication =>
    obtain ⟨client, fatal⟩ := isAuthenticationError_answers authentication
    exact ⟨fatal.symm, client.symm⟩
  · exact ⟨rfl, rfl⟩

end ServerFailure

/-- A fault that comes from wrong use of the library is of a kind that no attempt gets past. -/
theorem Fault.not_isRetryable_of_isUsageError {fault : Fault} (h : fault.isUsageError = true) :
    fault.isRetryable = false := by
  cases fault with
  | plain kind message => cases kind <;> first | rfl | cases h
  | server | retriesExhausted | callback => cases h

/-- **What is tried again.**  A failure that the server reported is tried again exactly if it passes
    by the documented rule or its code begins with the name of the passing errors and goes on
    without a dot; it lies with the client exactly if its code says so.  No fault whatsoever is both
    worth another attempt and the caller's own doing, and the end of a series of attempts is never
    worth another one, whatever it ended with. -/
theorem faults_classified (failure : ServerFailure) (fault source : Fault) (attempts : UInt32) :
    (failure.toFault.isRetryable = true ↔ failure.IsPassing ∨ failure.IsUndotted) ∧
    failure.toFault.isClientError = failure.isClientError ∧
    ¬ (fault.isRetryable = true ∧ fault.isUsageError = true) ∧
    (Fault.retriesExhausted attempts source).isRetryable = false := by
  obtain ⟨sameRetry, sameClient⟩ := failure.toFault_answers
  refine ⟨?_, sameClient, ?_, rfl⟩
  · rw [sameRetry]
    exact ServerFailure.isRetryable_iff
  · rintro ⟨retryable, usage⟩
    rw [Fault.not_isRetryable_of_isUsageError usage] at retryable
    cases retryable

/-- A code of another classification that is tried again. -/
example :
    (ServerFailure.mk "Neo.TransientErrors.General.Busy" "busy").toFault.isRetryable = true := by
  decide

end GraphSession
