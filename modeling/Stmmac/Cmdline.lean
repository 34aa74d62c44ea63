import Mathlib.Data.List.Infix
import Mathlib.Logic.Function.Basic
import Stmmac.Geometry
import Stmmac.Library.History
import Stmmac.Rx.Lengths

/-!
# The module parameters

`stmmac_cmdline_opt` takes the parameters from the kernel command line: options separated by commas,
each the name of a parameter and a number. The names are tried one after the other, but none of
them begins another, so the options can be read each on its own. The conversion of a number is the
kernel's and is taken as a function, `none` where it fails.
-/

namespace Stmmac

open Library

/-- The parameters that the command line can set. -/
inductive ModParam where
  | debug | phyaddr | dmaTxsize | dmaRxsize | bufSz | tc | watchdog | flowCtrl | pause | eeeTimer
  | chainMode
  deriving DecidableEq

/-- The module parameters, each an `int`. -/
abbrev ModParams := ModParam → BitVec 32

/-- Their values in a module without a command line. -/
def ModParams.init : ModParams
  | .debug => -1
  | .phyaddr => -1
  | .dmaTxsize => dmaTxSizeDefault
  | .dmaRxsize => dmaRxSizeDefault
  | .bufSz => dmaBufferSize
  | .tc => 64
  | .watchdog => 5000
  | .flowCtrl => 0
  | .pause => 0x200
  | .eeeTimer => 1000
  | .chainMode => 0

def einval : Int := 22

/-! ## The parser -/

/-- `strsep`: the token before the first delimiter and what follows that, if there is one. -/
def strsep (delim : Char) (str : List Char) : List Char × Option (List Char) :=
  (str.takeWhile (· != delim),
    match str.dropWhile (· != delim) with
    | [] => none
    | _ :: rest => some rest)

/-- `strncmp` finds the first `n` characters equal. -/
def strncmpEq (a b : List Char) (n : Nat) : Bool := a.take n == b.take n

/-- A branch of `stmmac_cmdline_opt`: the name, the number of characters compared and then skipped,
and the parameter set. -/
structure CmdlineOpt where
  name : String
  len : Nat
  param : ModParam

/-- The branches in their order. -/
def cmdlineOpts : List CmdlineOpt :=
  [⟨"debug:", 6, .debug⟩, ⟨"phyaddr:", 8, .phyaddr⟩, ⟨"dma_txsize:", 11, .dmaTxsize⟩,
    ⟨"dma_rxsize:", 11, .dmaRxsize⟩, ⟨"buf_sz:", 7, .bufSz⟩, ⟨"tc:", 3, .tc⟩,
    ⟨"watchdog:", 9, .watchdog⟩, ⟨"flow_ctrl:", 10, .flowCtrl⟩, ⟨"pause:", 6, .pause⟩,
    ⟨"eee_timer:", 10, .eeeTimer⟩, ⟨"chain_mode:", 11, .chainMode⟩]

/-- The chain of tests on one option; `none` is the jump to `err`. -/
def cmdlineOpt (kstrtoint : List Char → Option (BitVec 32)) (opt : List Char) (p : ModParams) :
    Option ModParams :=
  match cmdlineOpts.find? fun o => strncmpEq opt o.name.toList o.len with
  | none => some p
  | some o => (kstrtoint (opt.drop o.len)).map (Function.update p o.param)

theorem length_strsep {delim : Char} {str rest : List Char} (h : (strsep delim str).2 = some rest) :
    rest.length < str.length := by
  have hlen := congrArg List.length
    (List.takeWhile_append_dropWhile (p := (· != delim)) (l := str))
  unfold strsep at h
  cases hd : str.dropWhile (· != delim) with
  | nil => simp [hd] at h
  | cons c tail =>
    obtain rfl : tail = rest := by simpa [hd] using h
    simp only [hd, List.length_append, List.length_cons] at hlen
    omega

/-- The loop of `stmmac_cmdline_opt`. -/
def cmdlineLoop (kstrtoint : List Char → Option (BitVec 32)) (str : List Char) (p : ModParams) :
    ModParams × Int :=
  match cmdlineOpt kstrtoint (strsep ',' str).1 p with
  | none => (p, -einval)
  | some p =>
    match _h : (strsep ',' str).2 with
    | none => (p, 0)
    | some rest => cmdlineLoop kstrtoint rest p
termination_by str.length
decreasing_by exact length_strsep _h

/-- `str` is a null pointer or a string. -/
def stmmacCmdlineOpt (kstrtoint : List Char → Option (BitVec 32)) (str : Option (List Char))
    (p : ModParams) : ModParams × Int :=
  match str with
  | none => (p, -einval)
  | some [] => (p, -einval)
  | some str => cmdlineLoop kstrtoint str p

/-! ## What it is for -/

/-- The name of a parameter on the command line, with the colon. -/
def ModParam.key : ModParam → List Char
  | debug => "debug:".toList
  | phyaddr => "phyaddr:".toList
  | dmaTxsize => "dma_txsize:".toList
  | dmaRxsize => "dma_rxsize:".toList
  | bufSz => "buf_sz:".toList
  | tc => "tc:".toList
  | watchdog => "watchdog:".toList
  | flowCtrl => "flow_ctrl:".toList
  | pause => "pause:".toList
  | eeeTimer => "eee_timer:".toList
  | chainMode => "chain_mode:".toList

/-- The option names the parameter. -/
def ModParam.named (p : ModParam) (opt : List Char) : Bool := p.key.isPrefixOf opt

/-- The value that an option gives to a parameter. -/
def ModParam.given (kstrtoint : List Char → Option (BitVec 32)) (p : ModParam) (opt : List Char) :
    Option (BitVec 32) :=
  if p.named opt then kstrtoint (opt.drop p.key.length) else none

/-- The option names a parameter and the rest of it is no number. -/
def Broken (kstrtoint : List Char → Option (BitVec 32)) (opt : List Char) : Prop :=
  ∃ p : ModParam, p.named opt = true ∧ p.given kstrtoint opt = none

/-- The options before the first broken one have been applied, for each parameter the last that
names it; the result tells whether there is a broken one. -/
def Applied (kstrtoint : List Char → Option (BitVec 32)) (opts : List (List Char)) (p : ModParams)
    (out : ModParams × Int) : Prop :=
  ∃ good rest, opts = good ++ rest ∧ (∀ opt ∈ good, ¬ Broken kstrtoint opt) ∧
    (∀ q, out.1 q = (latest (ModParam.given kstrtoint q) good).getD (p q)) ∧
    (rest = [] ∧ out.2 = 0 ∨
      ∃ bad tail, rest = bad :: tail ∧ Broken kstrtoint bad ∧ out.2 = -einval)

/-! ## One option -/

section Option

variable {kstrtoint : List Char → Option (BitVec 32)} {opt : List Char} {p : ModParams}
  {q q' : ModParam}

theorem cmdlineOpts_key : ∀ o ∈ cmdlineOpts,
    o.name.toList = o.param.key ∧ o.len = o.param.key.length := by
  decide +kernel

theorem cmdlineOpts_covers (q : ModParam) : ∃ o ∈ cmdlineOpts, o.param = q := by
  cases q <;> decide

/-- No name begins another. -/
theorem key_isPrefixOf : ∀ o ∈ cmdlineOpts, ∀ o' ∈ cmdlineOpts,
    o.param.key.isPrefixOf o'.param.key = true → o.param = o'.param := by
  decide +kernel

theorem ModParam.named_iff : q.named opt = true ↔ q.key <+: opt := List.isPrefixOf_iff_prefix

/-- An option names one parameter at most. -/
theorem ModParam.named_unique (h : q.named opt = true) (h' : q'.named opt = true) : q = q' := by
  obtain ⟨o, ho, rfl⟩ := cmdlineOpts_covers q
  obtain ⟨o', ho', rfl⟩ := cmdlineOpts_covers q'
  rw [named_iff] at h h'
  rcases List.prefix_or_prefix_of_prefix h h' with hpre | hpre
  · exact key_isPrefixOf o ho o' ho' (List.isPrefixOf_iff_prefix.mpr hpre)
  · exact (key_isPrefixOf o' ho' o ho (List.isPrefixOf_iff_prefix.mpr hpre)).symm

/-- The test of a branch. -/
theorem strncmpEq_iff {o : CmdlineOpt} (ho : o ∈ cmdlineOpts) :
    strncmpEq opt o.name.toList o.len = true ↔ o.param.named opt = true := by
  obtain ⟨hname, hlen⟩ := cmdlineOpts_key o ho
  rw [strncmpEq, hname, hlen, List.take_length, beq_iff_eq, ModParam.named_iff,
    List.prefix_iff_eq_take]
  exact eq_comm

/-- The chain of tests finds the parameter that the option names. -/
theorem cmdlineOpt_of_named (h : q.named opt = true) : cmdlineOpt kstrtoint opt p =
    (kstrtoint (opt.drop q.key.length)).map (Function.update p q) := by
  obtain ⟨o, ho, rfl⟩ := cmdlineOpts_covers q
  unfold cmdlineOpt
  split
  · next hnone =>
    exact absurd ((strncmpEq_iff ho).mpr h) (List.find?_eq_none.mp hnone o ho)
  · next o' hsome =>
    have ho' := List.mem_of_find?_eq_some hsome
    have htest : strncmpEq opt o'.name.toList o'.len = true := by simpa using List.find?_some hsome
    have hnamed := (strncmpEq_iff ho').mp htest
    rw [(cmdlineOpts_key o' ho').2, ModParam.named_unique hnamed h]

theorem cmdlineOpt_of_unnamed (h : ∀ q : ModParam, q.named opt = false) :
    cmdlineOpt kstrtoint opt p = some p := by
  unfold cmdlineOpt
  split
  · rfl
  · next o hsome =>
    have htest : strncmpEq opt o.name.toList o.len = true := by simpa using List.find?_some hsome
    have hnamed := (strncmpEq_iff (List.mem_of_find?_eq_some hsome)).mp htest
    rw [h o.param] at hnamed
    cases hnamed

/-- An option that is not broken gives each parameter its value, or leaves it. -/
theorem cmdlineOpt_eq_some (h : ¬ Broken kstrtoint opt) :
    cmdlineOpt kstrtoint opt p = some fun q => (q.given kstrtoint opt).getD (p q) := by
  by_cases hex : ∃ q : ModParam, q.named opt = true
  · obtain ⟨q, hq⟩ := hex
    have hgiven : q.given kstrtoint opt = kstrtoint (opt.drop q.key.length) := if_pos hq
    obtain ⟨v, hv⟩ := Option.ne_none_iff_exists'.mp fun hnone => h ⟨q, hq, hnone⟩
    rw [cmdlineOpt_of_named hq, ← hgiven, hv, Option.map_some]
    refine congrArg some (funext fun q' => ?_)
    by_cases heq : q' = q
    · rw [heq, Function.update_self, hv, Option.getD_some]
    · have hother : q'.given kstrtoint opt = none :=
        if_neg fun hq' => heq (ModParam.named_unique hq' hq)
      rw [Function.update_of_ne heq, hother, Option.getD_none]
  · have hnone : ∀ q : ModParam, q.named opt = false := fun q => by
      simpa using fun hq => hex ⟨q, hq⟩
    rw [cmdlineOpt_of_unnamed hnone]
    refine congrArg some (funext fun q => ?_)
    rw [ModParam.given, if_neg (by simp [hnone q]), Option.getD_none]

theorem cmdlineOpt_eq_none (h : Broken kstrtoint opt) : cmdlineOpt kstrtoint opt p = none := by
  obtain ⟨q, hq, hnone⟩ := h
  rw [ModParam.given, if_pos hq] at hnone
  rw [cmdlineOpt_of_named hq, hnone, Option.map_none]

end Option

/-! ## The loop -/

section Loop

variable {kstrtoint : List Char → Option (BitVec 32)} {p : ModParams} {opt : List Char}
  {opts : List (List Char)} {out : ModParams × Int}

/-- The tokens of `strsep` are the parts between the delimiters. -/
theorem splitOn_strsep (delim : Char) (str : List Char) :
    str.splitOn delim =
      (strsep delim str).1 :: ((strsep delim str).2.map (·.splitOn delim)).getD [] := by
  induction str with
  | nil => rfl
  | cons x str ih =>
    rw [List.splitOn_cons_eq_if_modifyHead]
    by_cases hx : x = delim
    · simp [strsep, hx]
    · have hne : (x != delim) = true := by simpa using hx
      rw [if_neg (by simpa using hx), ih]
      simp [strsep, hne]

theorem Applied.cons (h : ¬ Broken kstrtoint opt)
    (happ : Applied kstrtoint opts (fun q => (q.given kstrtoint opt).getD (p q)) out) :
    Applied kstrtoint (opt :: opts) p out := by
  obtain ⟨good, rest, rfl, hgood, hout, hrest⟩ := happ
  refine ⟨opt :: good, rest, rfl, List.forall_mem_cons.mpr ⟨h, hgood⟩, fun q => ?_, hrest⟩
  rw [hout q, latest_cons]
  cases latest (ModParam.given kstrtoint q) good <;> rfl

theorem applied_nil : Applied kstrtoint [] p (p, 0) :=
  ⟨[], [], rfl, fun _ h => absurd h List.not_mem_nil, fun _ => rfl, .inl ⟨rfl, rfl⟩⟩

/-- What the chain of tests returns, the option gives. -/
theorem cmdlineOpt_inv {p' : ModParams} (h : cmdlineOpt kstrtoint opt p = some p') :
    ¬ Broken kstrtoint opt ∧ p' = fun q => (q.given kstrtoint opt).getD (p q) := by
  have hok : ¬ Broken kstrtoint opt := fun hbroken => by
    rw [cmdlineOpt_eq_none hbroken] at h
    cases h
  rw [cmdlineOpt_eq_some hok] at h
  exact ⟨hok, (Option.some.inj h).symm⟩

/-- The loop applies the options of the string. -/
theorem cmdlineLoop_applied (kstrtoint : List Char → Option (BitVec 32)) (str : List Char)
    (p : ModParams) : Applied kstrtoint (str.splitOn ',') p (cmdlineLoop kstrtoint str p) := by
  fun_induction cmdlineLoop kstrtoint str p with
  | case1 str p hnone =>
    have hbroken : Broken kstrtoint (strsep ',' str).1 := by
      by_contra hok
      rw [cmdlineOpt_eq_some hok] at hnone
      cases hnone
    rw [splitOn_strsep]
    exact ⟨[], _, rfl, fun _ h => absurd h List.not_mem_nil, fun _ => rfl,
      .inr ⟨_, _, rfl, hbroken, rfl⟩⟩
  | case2 str p p' hsome hlast =>
    obtain ⟨hok, rfl⟩ := cmdlineOpt_inv hsome
    rw [splitOn_strsep, hlast]
    exact .cons hok applied_nil
  | case3 str p p' hsome rest hrest ih =>
    obtain ⟨hok, rfl⟩ := cmdlineOpt_inv hsome
    rw [splitOn_strsep, hrest]
    exact .cons hok ih

end Loop

theorem stmmacCmdlineOpt_applied {str : List Char} (h : str ≠ []) :
    Applied kstrtoint (str.splitOn ',') p (stmmacCmdlineOpt kstrtoint (some str) p) := by
  cases str with
  | nil => exact absurd rfl h
  | cons x str => exact cmdlineLoop_applied kstrtoint (x :: str) p

/-- Every string but the empty one is read option by option: those before the first broken one
take effect, whatever the order of the tests, and the call fails exactly if there is a broken one.
Without a string nothing is set and the call fails. -/
theorem cmdline_applied (kstrtoint : List Char → Option (BitVec 32)) (str : Option (List Char))
    (p : ModParams) :
    (str.getD [] = [] → stmmacCmdlineOpt kstrtoint str p = (p, -einval)) ∧
      (str.getD [] ≠ [] →
        Applied kstrtoint ((str.getD []).splitOn ',') p (stmmacCmdlineOpt kstrtoint str p)) := by
  cases str with
  | none => exact ⟨fun _ => rfl, fun h => absurd rfl h⟩
  | some str =>
    refine ⟨fun h => ?_, stmmacCmdlineOpt_applied⟩
    obtain rfl : str = [] := h
    rfl

/-! ## Printing and reading back -/

/-- An option as it is written. -/
def printOpt (print : BitVec 32 → List Char) (s : ModParam × BitVec 32) : List Char :=
  s.1.key ++ print s.2

/-- Options joined by commas. -/
def printOpts (print : BitVec 32 → List Char) (ss : List (ModParam × BitVec 32)) : List Char :=
  [','].intercalate (ss.map (printOpt print))

section Print

variable {kstrtoint : List Char → Option (BitVec 32)} {print : BitVec 32 → List Char}
  {p : ModParams} {s : ModParam × BitVec 32} {ss : List (ModParam × BitVec 32)}

theorem key_no_comma (q : ModParam) : ',' ∉ q.key := by
  cases q <;> decide

theorem key_ne_nil (q : ModParam) : q.key ≠ [] := by
  cases q <;> decide

/-- An option written for a parameter gives its value to that one and to no other. -/
theorem given_printOpt (h : kstrtoint (print s.2) = some s.2) (q : ModParam) :
    q.given kstrtoint (printOpt print s) = if s.1 = q then some s.2 else none := by
  have hself : s.1.named (printOpt print s) = true :=
    ModParam.named_iff.mpr (List.prefix_append _ _)
  split_ifs with hq
  · subst hq
    rw [ModParam.given, if_pos hself, printOpt, List.drop_left, h]
  · exact if_neg fun hnamed => hq (ModParam.named_unique hself hnamed)

end Print

/-- What is printed for any list of settings is read back: the call succeeds and each parameter has
the value of its last setting. -/
theorem cmdline_round_trip (kstrtoint : List Char → Option (BitVec 32))
    (print : BitVec 32 → List Char) (p : ModParams) (ss : List (ModParam × BitVec 32))
    (hne : ss ≠ []) (hnumber : ∀ s ∈ ss, kstrtoint (print s.2) = some s.2)
    (hcomma : ∀ s ∈ ss, ',' ∉ print s.2) :
    stmmacCmdlineOpt kstrtoint (some (printOpts print ss)) p =
      (fun q => (latest (fun s => if s.1 = q then some s.2 else none) ss).getD (p q), 0) := by
  have hsplit : (printOpts print ss).splitOn ',' = ss.map (printOpt print) := by
    refine List.splitOn_intercalate _ (fun l hl => ?_) (by simpa using hne)
    obtain ⟨s, hs, rfl⟩ := List.mem_map.mp hl
    exact fun h => (List.mem_append.mp h).elim (key_no_comma s.1) (hcomma s hs)
  have hnonempty : printOpts print ss ≠ [] := fun h => by
    -- the empty string has one empty part, and no option is empty
    rw [h] at hsplit
    have hempty : [] ∈ ss.map (printOpt print) := hsplit ▸ List.mem_singleton.mpr rfl
    obtain ⟨s, -, hs⟩ := List.mem_map.mp hempty
    exact key_ne_nil s.1 (List.append_eq_nil_iff.mp hs).1
  have happ : Applied kstrtoint _ p _ := stmmacCmdlineOpt_applied hnonempty
  rw [hsplit] at happ
  obtain ⟨good, rest, hopts, -, hvalue, hend⟩ := happ
  have hrest : rest = [] ∧ (stmmacCmdlineOpt kstrtoint (some (printOpts print ss)) p).2 = 0 := by
    refine hend.resolve_right ?_
    rintro ⟨bad, tail, hbad, ⟨q, hq, hbroken⟩, -⟩
    have hmem : bad ∈ ss.map (printOpt print) := by
      rw [hopts, hbad]
      simp
    obtain ⟨s, hs, rfl⟩ := List.mem_map.mp hmem
    have hself : s.1.named (printOpt print s) = true :=
      ModParam.named_iff.mpr (List.prefix_append _ _)
    rw [given_printOpt (hnumber s hs), if_pos (ModParam.named_unique hself hq)] at hbroken
    cases hbroken
  rw [hrest.1, List.append_nil] at hopts
  refine Prod.ext (funext fun q => ?_) hrest.2
  rw [hvalue q, ← hopts, latest_comp,
    latest_congr (fun s hs => given_printOpt (hnumber s hs) q)]

/-- The number of a list of decimal digits, with a sign before them. -/
def decimal : List Char → Option (BitVec 32)
  | '-' :: digits => (decimalDigits digits).map fun n => -BitVec.ofNat 32 n
  | digits => (decimalDigits digits).map (BitVec.ofNat 32)
where
  decimalDigits (digits : List Char) : Option Nat :=
    if digits = [] ∨ digits.all Char.isDigit = false then none
    else some (digits.foldl (fun n d => 10 * n + (d.toNat - 48)) 0)

/-- Decimal digits, with a sign before them where the number is negative. -/
def printDecimal (v : BitVec 32) : List Char :=
  if v.toInt < 0 then '-' :: Nat.toDigits 10 (-v).toNat else Nat.toDigits 10 v.toNat

/-- A parameter set twice, and one set to a negative number. -/
theorem cmdline_round_trip_twice :
    stmmacCmdlineOpt decimal
        (some (printOpts printDecimal [(.tc, 128), (.phyaddr, -1), (.tc, 256)])) ModParams.init =
      (fun q => (latest (fun s => if s.1 = q then some s.2 else none)
        [(ModParam.tc, 128), (.phyaddr, -1), (.tc, 256)]).getD (ModParams.init q), 0) :=
  cmdline_round_trip decimal printDecimal ModParams.init _ (by decide) (by decide +kernel)
    (by decide +kernel)

end Stmmac
