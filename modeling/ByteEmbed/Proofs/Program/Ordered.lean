import ByteEmbed.Proofs.Program.Frames

/-!
# ByteEmbed.Proofs.Program.Ordered — stages that take steps in order.

`Goes` is the triple in which stages are told: a stage that is to take some steps, run on a machine
where others have been taken, fails with the first fault among them or else ends well.  Its rules
follow the way stages are put together.  A stage takes its first step and then the others
(`Goes.cons`), two stages take their steps one after the other (`Goes.bind`), and a file is removed
whatever happened (`Goes.removing`).  What the tools were asked and what was written is accounted
for in `Since`, in lists that only grow.  A stage that goes is never given up, so the triple is one
for machines whose streams take everything.
-/

namespace ByteEmbed

/-! ## Accounts -/

namespace Sandbox

theorem writeErrors_writeErrors (s : Sandbox) (bytes more : List UInt8) :
    (s.writeErrors bytes).writeErrors more = s.writeErrors (bytes ++ more) := by
  simp [writeErrors]

/-- What was done between two states of a machine: the tools that were started, and what was written
to the two streams. -/
structure Since (s t : Sandbox) (tools : List Tool) (output errors : List UInt8) : Prop where
  constants : t.constants = s.constants
  tools : t.calls.map ToolCall.tool = s.calls.map ToolCall.tool ++ tools
  output : t.output = s.output ++ output
  errors : t.errors = s.errors ++ errors

namespace Since

variable {s t : Sandbox} {tools : List Tool} {output errors : List UInt8}

theorem refl (s : Sandbox) : Since s s [] [] [] where
  constants := rfl
  tools := (List.append_nil _).symm
  output := (List.append_nil _).symm
  errors := (List.append_nil _).symm

theorem workingDirectory (h : Since s t tools output errors) :
    t.workingDirectory = s.workingDirectory :=
  (congrArg Sandbox.workingDirectory h.constants :)

theorem temporaryDirectory (h : Since s t tools output errors) :
    t.temporaryDirectory = s.temporaryDirectory :=
  (congrArg Sandbox.temporaryDirectory h.constants :)

theorem tag (h : Since s t tools output errors) : t.tag = s.tag :=
  (congrArg Sandbox.tag h.constants :)

theorem entropy (h : Since s t tools output errors) : t.entropy = s.entropy :=
  (congrArg Sandbox.entropy h.constants :)

theorem faults (h : Since s t tools output errors) : t.faults = s.faults :=
  (congrArg Sandbox.faults h.constants :)

theorem reply? (h : Since s t tools output errors) : t.reply? = s.reply? :=
  (congrArg Sandbox.reply? h.constants :)

theorem outcome (h : Since s t tools output errors) : t.outcome = s.outcome :=
  (congrArg Sandbox.outcome h.constants :)

theorem takesAll (h : Since s t tools output errors) (htakes : s.TakesAll) : t.TakesAll := by
  rw [TakesAll, h.faults]
  exact htakes

theorem withFiles (h : Since s t tools output errors) (files : FileTree) :
    Since s { t with files } tools output errors :=
  ⟨h.constants, h.tools, h.output, h.errors⟩

theorem withInput (h : Since s t tools output errors) (input : List UInt8) :
    Since s { t with input } tools output errors :=
  ⟨h.constants, h.tools, h.output, h.errors⟩

theorem writeOutput (h : Since s t tools output errors) (bytes : List UInt8) :
    Since s (t.writeOutput bytes) tools (output ++ bytes) errors where
  constants := h.constants
  tools := h.tools
  output := by rw [Sandbox.writeOutput, h.output, List.append_assoc]
  errors := h.errors

theorem writeErrors (h : Since s t tools output errors) (bytes : List UInt8) :
    Since s (t.writeErrors bytes) tools output (errors ++ bytes) where
  constants := h.constants
  tools := h.tools
  output := h.output
  errors := by rw [Sandbox.writeErrors, h.errors, List.append_assoc]

theorem afterTool (h : Since s t tools output errors) (tool : Tool) (args : List String) :
    Since s (t.afterTool tool args) (tools ++ [tool]) output errors where
  constants := h.constants
  tools := by
    rw [Sandbox.afterTool, List.map_append, h.tools, List.append_assoc]
    rfl
  output := h.output
  errors := h.errors

/-- What a tool writes is kept or not; it was started either way, if it is there. -/
theorem afterCaptured (h : Since s t tools output errors) (tool : Tool) (args : List String) :
    Since s (t.afterCaptured tool args) (tools ++ [tool].filter fun tool => (s.reply? tool).isSome)
      output errors := by
  rw [Sandbox.afterCaptured, h.reply?]
  cases hreply : s.reply? tool with
  | none =>
      simp only [List.filter_cons, hreply]
      simpa using h
  | some reply =>
      simp only [List.filter_cons, hreply]
      simpa using h.afterTool tool args

theorem afterAttached (h : Since s t tools output errors) (tool : Tool) (args : List String) :
    Since s (t.afterAttached tool args) (tools ++ [tool].filter fun tool => (s.reply? tool).isSome)
      (output ++ (s.reply? tool).elim [] ToolReply.output)
      (errors ++ (s.reply? tool).elim [] ToolReply.errors) := by
  rw [Sandbox.afterAttached, h.reply?]
  cases hreply : s.reply? tool with
  | none =>
      simp only [List.filter_cons, hreply]
      simpa using h
  | some reply =>
      simp only [List.filter_cons, hreply]
      simpa using ((h.afterTool tool args).writeOutput reply.output).writeErrors reply.errors

end Since

end Sandbox

namespace Session

open Sandbox (Since)

variable {readers : Readers} {invocation : Invocation} {s t : Sandbox}

/-- The machine after some steps have succeeded. -/
def Reached (readers : Readers) (invocation : Invocation) (s : Sandbox) (done : List Step)
    (t : Sandbox) : Prop :=
  Since s t (done.flatMap (started s)) (done.flatMap (printed s)) (told readers invocation s done)

/-- The machine when, after some steps have succeeded, another one has been taken and nothing has
been said about it. -/
def Taken (readers : Readers) (invocation : Invocation) (s : Sandbox) (earlier : List Step)
    (step : Step) (t : Sandbox) : Prop :=
  Since s t ((earlier ++ [step]).flatMap (started s)) ((earlier ++ [step]).flatMap (printed s))
    (told readers invocation s earlier ++ shown s step)

theorem taken_of_since {earlier : List Step} {step : Step}
    (h : Since s t (earlier.flatMap (started s) ++ started s step)
      (earlier.flatMap (printed s) ++ printed s step)
      (told readers invocation s earlier ++ shown s step)) :
    Taken readers invocation s earlier step t := by
  rw [Taken, List.flatMap_append, List.flatMap_append, List.flatMap_singleton,
    List.flatMap_singleton]
  exact h

/-- A step that has no tool leaves nothing behind. -/
theorem Reached.taken {done : List Step} {step : Step} (h : Reached readers invocation s done t)
    (hstep : step.tool? = none) : Taken readers invocation s done step t := by
  have hstarted : started s step = [] := by simp [started, hstep]
  have hprinted : printed s step = [] := by cases step <;> simp_all [printed, Step.tool?]
  have hshown : shown s step = [] := by cases step <;> simp_all [shown, Step.tool?]
  apply taken_of_since
  rw [hstarted, hprinted, hshown, List.append_nil, List.append_nil, List.append_nil]
  exact h

theorem told_append (done : List Step) (step : Step) :
    told readers invocation s (done ++ [step])
      = told readers invocation s done ++ shown s step
        ++ Text.Utf8.encode (announced readers invocation s step) := by
  rw [told, List.flatMap_append, List.flatMap_singleton, ← List.append_assoc]
  rfl

/-- A step has succeeded when it has been announced. -/
theorem Taken.reached {earlier : List Step} {step : Step}
    (h : Taken readers invocation s earlier step t) :
    Reached readers invocation s (earlier ++ [step])
      (t.writeErrors (Text.Utf8.encode (announced readers invocation s step))) := by
  rw [Reached, told_append]
  exact h.writeErrors _

/-- A step of which nothing is said has succeeded as soon as it has been taken. -/
theorem Taken.reached_of_silent {earlier : List Step} {step : Step}
    (h : Taken readers invocation s earlier step t)
    (hsilent : announced readers invocation s step = "") :
    Reached readers invocation s (earlier ++ [step]) t := by
  rw [Reached, told_append, hsilent]
  have hnil : Text.Utf8.encode "" = [] := rfl
  rw [hnil, List.append_nil]
  exact h

/-! ## First faults -/

theorem clean_cons {first : Step} {steps : List Step}
    (hfirst : ∀ failure, ¬ Fault readers invocation s first failure)
    (hsteps : Clean readers invocation s steps) :
    Clean readers invocation s (first :: steps) := by
  intro step hstep
  rcases List.mem_cons.mp hstep with rfl | hstep
  · exact hfirst
  · exact hsteps step hstep

theorem FirstFault.cons {steps earlier : List Step} {step first : Step} {failure : Failure}
    (h : FirstFault readers invocation s (first :: steps) earlier step failure) :
    (earlier = [] ∧ step = first)
      ∨ (∀ other, ¬ Fault readers invocation s first other)
        ∧ ∃ rest, earlier = first :: rest
          ∧ FirstFault readers invocation s steps rest step failure := by
  obtain ⟨⟨later, horder⟩, hclean, hfault⟩ := h
  cases earlier with
  | nil =>
      cases horder
      exact .inl ⟨rfl, rfl⟩
  | cons head rest =>
      cases horder
      exact .inr ⟨hclean _ List.mem_cons_self, rest, rfl, ⟨later, rfl⟩,
        fun e he => hclean e (List.mem_cons_of_mem _ he), hfault⟩

/-- The first fault among the steps of two stages is in the first stage, or the first stage has none
and it is the first one of the second. -/
theorem FirstFault.append {steps others earlier : List Step} {step : Step} {failure : Failure}
    (h : FirstFault readers invocation s (steps ++ others) earlier step failure) :
    FirstFault readers invocation s steps earlier step failure
      ∨ Clean readers invocation s steps
        ∧ ∃ rest, earlier = steps ++ rest
          ∧ FirstFault readers invocation s others rest step failure := by
  induction steps generalizing earlier with
  | nil => exact .inr ⟨fun _ he => (List.not_mem_nil he).elim, earlier, rfl, h⟩
  | cons first steps ih =>
      rcases h.cons with ⟨rfl, rfl⟩ | ⟨hfirst, rest, rfl, hrest⟩
      · exact .inl ⟨⟨steps, rfl⟩, h.clean, h.fault⟩
      · rcases ih hrest with hleft | ⟨hsteps, more, rfl, hright⟩
        · obtain ⟨⟨later, rfl⟩, hclean, hfault⟩ := hleft
          exact .inl ⟨⟨later, rfl⟩, clean_cons hfirst hclean, hfault⟩
        · exact .inr ⟨clean_cons hfirst hsteps, more, rfl, hright⟩

/-- Among some steps there is a first fault, or nothing is wrong with any of them. -/
theorem clean_or_firstFault (readers : Readers) (invocation : Invocation) (s : Sandbox)
    (steps : List Step) :
    Clean readers invocation s steps
      ∨ ∃ earlier step failure, FirstFault readers invocation s steps earlier step failure := by
  induction steps with
  | nil => exact .inl fun _ he => (List.not_mem_nil he).elim
  | cons first steps ih =>
      by_cases hfault : ∃ failure, Fault readers invocation s first failure
      · obtain ⟨failure, hfault⟩ := hfault
        exact .inr ⟨[], first, failure, ⟨steps, rfl⟩, fun _ he => (List.not_mem_nil he).elim,
          hfault⟩
      · have hfirst := not_exists.mp hfault
        rcases ih with hclean | ⟨earlier, step, failure, ⟨later, rfl⟩, hclean, hstep⟩
        · exact .inl (clean_cons hfirst hclean)
        · exact .inr ⟨first :: earlier, step, failure, ⟨later, rfl⟩, clean_cons hfirst hclean,
            hstep⟩

/-! ## The triple -/

/-- How a stage goes that is to take `steps` on a machine where the steps `before` have succeeded:
it fails with their first fault, or it ends with `good`. -/
structure Goes {α : Type} (readers : Readers) (invocation : Invocation) (s : Sandbox)
    (before steps : List Step) (stage : Stage (StateM Sandbox) α) (t : Sandbox)
    (good : α → Sandbox → Prop) : Prop where
  fails : ∀ earlier step failure, FirstFault readers invocation s steps earlier step failure →
    ∃ t', runOn stage t = (.error (.failed failure), t')
      ∧ Taken readers invocation s (before ++ earlier) step t'
  ends : Clean readers invocation s steps → ∃ a t', runOn stage t = (.ok a, t') ∧ good a t'

namespace Goes

variable {α β : Type} {before steps others : List Step} {step : Step}
  {stage : Stage (StateM Sandbox) α} {next : α → Stage (StateM Sandbox) β}
  {good good' : α → Sandbox → Prop} {after : β → Sandbox → Prop}

theorem imp (h : Goes readers invocation s before steps stage t good)
    (himp : ∀ a t', good a t' → good' a t') :
    Goes readers invocation s before steps stage t good' where
  fails := h.fails
  ends := by
    intro hclean
    obtain ⟨a, t', hrun, hgood⟩ := h.ends hclean
    exact ⟨a, t', hrun, himp a t' hgood⟩

/-- A stage that has no steps left. -/
theorem nil {a : α} {t' : Sandbox} (hrun : runOn stage t = (.ok a, t')) (hgood : good a t') :
    Goes readers invocation s before [] stage t good where
  fails := by
    rintro earlier step failure ⟨⟨later, horder⟩, -, -⟩
    cases earlier <;> cases horder
  ends := fun _ => ⟨a, t', hrun, hgood⟩

/-- A stage takes its first step, and if nothing is wrong with that it goes on. -/
theorem cons
    (hfault : ∀ failure, Fault readers invocation s step failure →
      ∃ t', runOn stage t = (.error (.failed failure), t')
        ∧ Taken readers invocation s before step t')
    (hclean : (∀ failure, ¬ Fault readers invocation s step failure) →
      Goes readers invocation s (before ++ [step]) steps stage t good) :
    Goes readers invocation s before (step :: steps) stage t good where
  fails := by
    intro earlier first failure h
    rcases h.cons with ⟨rfl, rfl⟩ | ⟨hstep, rest, rfl, hrest⟩
    · rw [List.append_nil]
      exact hfault failure h.fault
    · rw [List.append_cons]
      exact (hclean hstep).fails rest first failure hrest
  ends := fun h =>
    (hclean (h step List.mem_cons_self)).ends fun e he => h e (List.mem_cons_of_mem _ he)

/-- A computation that ends without a step. -/
theorem following {a : α} {t' : Sandbox} (hrun : runOn stage t = (.ok a, t'))
    (h : Goes readers invocation s before steps (next a) t' after) :
    Goes readers invocation s before steps (stage >>= next) t after where
  fails := fun earlier step failure hfirst => by
    rw [runOn_bind_ok hrun]
    exact h.fails earlier step failure hfirst
  ends := fun hclean => by
    rw [runOn_bind_ok hrun]
    exact h.ends hclean

/-- Two stages take their steps one after the other. -/
theorem bind (h : Goes readers invocation s before steps stage t good)
    (hnext : ∀ a t', good a t' →
      Goes readers invocation s (before ++ steps) others (next a) t' after) :
    Goes readers invocation s before (steps ++ others) (stage >>= next) t after where
  fails := by
    intro earlier step failure hfirst
    rcases hfirst.append with hleft | ⟨hclean, rest, rfl, hright⟩
    · obtain ⟨t', hrun, htaken⟩ := h.fails earlier step failure hleft
      exact ⟨t', runOn_bind_error hrun, htaken⟩
    · obtain ⟨a, t', hrun, hgood⟩ := h.ends hclean
      rw [runOn_bind_ok hrun, ← List.append_assoc]
      exact (hnext a t' hgood).fails rest step failure hright
  ends := by
    intro hclean
    obtain ⟨a, t', hrun, hgood⟩ := h.ends fun e he => hclean e (List.mem_append_left _ he)
    rw [runOn_bind_ok hrun]
    exact (hnext a t' hgood).ends fun e he => hclean e (List.mem_append_right _ he)

/-- A stage takes its steps, and what goes on from it takes no others. -/
theorem lastly (h : Goes readers invocation s before steps stage t good)
    (hnext : ∀ a t', good a t' →
      Goes readers invocation s (before ++ steps) [] (next a) t' after) :
    Goes readers invocation s before steps (stage >>= next) t after := by
  have hboth := h.bind hnext
  rwa [List.append_nil] at hboth

/-- A file is removed whatever happened. -/
theorem removing {file : String}
    (h : Goes readers invocation s before steps stage t
      (fun a t' => good a { t' with files := t'.filesWithout file })) :
    Goes readers invocation s before steps (removing file stage) t good where
  fails := by
    intro earlier step failure hfirst
    obtain ⟨t', hrun, htaken⟩ := h.fails earlier step failure hfirst
    rw [runOn_removing, hrun]
    exact ⟨_, rfl, htaken.withFiles _⟩
  ends := by
    intro hclean
    obtain ⟨a, t', hrun, hgood⟩ := h.ends hclean
    rw [runOn_removing, hrun]
    exact ⟨a, _, rfl, hgood⟩

end Goes

end Session

end ByteEmbed
