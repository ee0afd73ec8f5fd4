import Mathlib.Tactic.FinCases
import MvsXinu.Config.Statements

/-!
# What a line of the configuration may do

The tokens of a line are statements: a keyword, and its value where it takes one. Worked off from
any state, a line stays within the token list and the fields of the interface that is selected
exactly if it has no more tokens than fit, no value is missing, nothing is set while another
number than that of an interface is selected, and no name is too long for its field.
-/

namespace MvsXinu.Config

open MvsXinu.AddressText

set_option autoImplicit false

/-! ## The runs of a line -/

/-- The maximal runs of characters that stay in the line. -/
def runs (pline : List Char) : List Token :=
  (pline.splitOnP fun ch => !tokenChar ch).filter fun run => run ≠ []

theorem splitOnP_tokenChar (pline : List Char) :
    ∀ run ∈ pline.splitOnP fun ch => !tokenChar ch, ∀ ch ∈ run, tokenChar ch = true := by
  induction pline with
  | nil => simp
  | cons ch pline ih =>
      rw [List.splitOnP_cons_eq_if_modifyHead]
      obtain ⟨first, others, split⟩ := List.exists_cons_of_ne_nil
        (List.splitOnP_ne_nil (fun ch => !tokenChar ch) pline)
      rw [split] at ih ⊢
      cases token : tokenChar ch with
      | false =>
          rw [if_pos (by simp)]
          intro run member
          rcases List.mem_cons.mp member with rfl | member
          · intro other impossible
            cases impossible
          · exact ih run member
      | true =>
          rw [if_neg (by simp), List.modifyHead_cons]
          intro run member
          rcases List.mem_cons.mp member with rfl | member
          · intro other inside
            rcases List.mem_cons.mp inside with rfl | inside
            · exact token
            · exact ih first List.mem_cons_self other inside
          · exact ih run (List.mem_cons_of_mem _ member)

theorem runs_tokenChar (pline : List Char) :
    ∀ run ∈ runs pline, ∀ ch ∈ run, tokenChar ch = true :=
  fun run member => splitOnP_tokenChar pline run (List.mem_of_mem_filter member)

/-- The runs between the blanks of a line that has been cleaned. -/
def words (text : List Char) : List Token :=
  (text.splitOnP fun ch => ch == ' ').filter fun run => run ≠ []

theorem tokenChar_blank : tokenChar ' ' = false := by decide

theorem splitOnP_clean (pline : List Char) :
    (clean pline).splitOnP (fun ch => ch == ' ') = pline.splitOnP fun ch => !tokenChar ch := by
  induction pline with
  | nil => rfl
  | cons ch pline ih =>
      have cleaned : clean (ch :: pline) = (if tokenChar ch then ch else ' ') :: clean pline := rfl
      rw [cleaned, List.splitOnP_cons_eq_if_modifyHead, List.splitOnP_cons_eq_if_modifyHead, ih]
      cases token : tokenChar ch with
      | false => simp
      | true =>
          have notBlank : ch ≠ ' ' := by
            rintro rfl
            rw [tokenChar_blank] at token
            cases token
          simp [notBlank]

theorem words_clean (pline : List Char) : words (clean pline) = runs pline := by
  rw [words, runs, splitOnP_clean]

theorem words_blank (text : List Char) : words (' ' :: text) = words text := by
  simp [words, List.splitOnP_cons_eq_if_modifyHead]

/-- A token, and what is behind the blank that ends it. -/
theorem words_token {ch : Char} (token : ch ≠ ' ') (text : List Char) :
    words (ch :: text) = (ch :: text).takeWhile (· != ' ') ::
      words ((ch :: text).dropWhile (· != ' ')).tail := by
  have marked : ∀ other ∈ (ch :: text).takeWhile (· != ' '), (other == ' ') = false := by
    intro other member
    simpa using List.mem_takeWhile_imp member
  have nonempty : (ch :: text).takeWhile (· != ' ') ≠ [] := by
    rw [List.takeWhile_cons, if_pos (by simpa using token)]
    exact List.cons_ne_nil _ _
  have parts : (ch :: text).takeWhile (· != ' ') ++ (ch :: text).dropWhile (· != ' ') =
      ch :: text := List.takeWhile_append_dropWhile
  have whole : words (ch :: text) =
      words ((ch :: text).takeWhile (· != ' ') ++ (ch :: text).dropWhile (· != ' ')) :=
    congrArg words parts.symm
  rw [whole]
  generalize (ch :: text).takeWhile (· != ' ') = run at marked nonempty
  cases behind : (ch :: text).dropWhile (· != ' ') with
  | nil =>
      rw [List.append_nil, words, List.splitOnP_eq_singleton marked]
      simp [nonempty, words]
  | cons blank rest =>
      have stop := List.head?_dropWhile_not (· != ' ') (ch :: text)
      rw [behind] at stop
      have isBlank : blank = ' ' := by simpa using stop
      rw [isBlank, words, List.splitOnP_append_cons_of_forall_mem marked ' ' rfl rest]
      simp [nonempty, words]

/-- The loop lists the tokens, up to one more than there is a limit for. -/
theorem tokenLoop_eq (text : List Char) (fuel i : Nat) (enough : text.length ≤ fuel)
    (below : i ≤ maxTokens) :
    tokenLoop fuel i text = some ((words text).take (maxTokens + 1 - i)) := by
  induction fuel generalizing text i with
  | zero =>
      obtain rfl : text = [] := List.eq_nil_of_length_eq_zero (by omega)
      simp [tokenLoop, words]
  | succ fuel ih =>
      cases text with
      | nil => simp [tokenLoop, words]
      | cons ch text =>
          rw [List.length_cons] at enough
          rw [tokenLoop]
          by_cases blank : ch = ' '
          · subst blank
            rw [if_neg (by simp), words_blank]
            exact ih text i (by omega) below
          · rw [if_pos blank, words_token blank]
            dsimp only
            split_ifs with full
            · have last : maxTokens + 1 - i = 1 := by omega
              rw [last, List.take_succ_cons, List.take_zero]
            · have shorter : ((ch :: text).dropWhile (· != ' ')).tail.length ≤ fuel := by
                have dropped := (List.dropWhile_sublist (fun other => other != ' ')
                  (l := ch :: text)).length_le
                rw [List.length_cons] at dropped
                rw [List.length_tail]
                omega
              have next : maxTokens + 1 - i = maxTokens + 1 - (i + 1) + 1 := by omega
              rw [ih _ _ shorter (by omega), next, List.take_succ_cons]
              rfl

theorem tokenize_runs (pline : List Char) :
    tokenize pline = some ((runs pline).take (maxTokens + 1)) := by
  have length : (clean pline).length ≤ pline.length := by
    rw [clean, List.length_map]
  rw [tokenize, tokenLoop_eq _ _ _ length (Nat.zero_le _), words_clean, Nat.sub_zero]

/-! ## Statements -/

structure Statement where
  keyword : Option Keyword
  value : Option Token

/-- Whether the next token belongs to the keyword; without a half, `ddname` and `cuu` are passed
over alone. -/
def takesValue (half : Bool) : Option Keyword → Bool
  | some .iface | some .type | some .ip | some .mask | some .defaultgw => true
  | some .ddname | some .cuu => half
  | none | some .enable | some .disable | some (.half _) => false

/-- Whether a field of an interface is set. -/
def setsField (half : Bool) : Option Keyword → Bool
  | none | some .iface | some (.half _) => false
  | some .ddname | some .cuu => half
  | some .enable | some .disable | some .type | some .ip | some .mask | some .defaultgw => true

def halfAfter (half : Bool) : Option Keyword → Bool
  | some .iface => false
  | some (.half _) => true
  | _ => half

def statements (half : Bool) : List Token → List Statement
  | [] => []
  | ptoken :: rest =>
      if takesValue half (keyword ptoken) then
        match rest with
        | [] => [⟨keyword ptoken, none⟩]
        | value :: later =>
            ⟨keyword ptoken, some value⟩ :: statements (halfAfter half (keyword ptoken)) later
      else ⟨keyword ptoken, none⟩ :: statements (halfAfter half (keyword ptoken)) rest

section Parsing

variable {half : Bool} {ptoken : Token}

theorem statements_alone (alone : takesValue half (keyword ptoken) = false) (rest : List Token) :
    statements half (ptoken :: rest) =
      ⟨keyword ptoken, none⟩ :: statements (halfAfter half (keyword ptoken)) rest := by
  cases rest <;> simp [statements, alone]

theorem statements_valued (takes : takesValue half (keyword ptoken) = true) (value : Token)
    (later : List Token) : statements half (ptoken :: value :: later) =
      ⟨keyword ptoken, some value⟩ :: statements (halfAfter half (keyword ptoken)) later := by
  simp [statements, takes]

theorem statements_missing (takes : takesValue half (keyword ptoken) = true) :
    statements half [ptoken] = [⟨keyword ptoken, none⟩] := by
  simp [statements, takes]

end Parsing

/-- The interface that is selected behind a statement. -/
def Statement.selects (st : Statement) (iface : Int) : Int :=
  if st.keyword = some .iface then (st.value.map atoi).getD iface else iface

/-- The interfaces that are selected in front of the statements and behind the last one. -/
def selections : Int → List Statement → List Int
  | iface, [] => [iface]
  | iface, st :: rest => iface :: selections (st.selects iface) rest

structure Statement.Allowed (iface : Int) (half : Bool) (st : Statement) : Prop where
  valued : takesValue half st.keyword = true → st.value.isSome = true
  inside : setsField half st.keyword = true → 0 ≤ iface ∧ iface < maxIface
  fits : st.keyword = some .ddname → ∀ value ∈ st.value, value.length ≤ ddnameLen

def Allowed : Int → Bool → List Statement → Prop
  | _, _, [] => True
  | iface, half, st :: rest =>
      st.Allowed iface half ∧ Allowed (st.selects iface) (halfAfter half st.keyword) rest

/-! ## One turn -/

/-- Nothing but the interface with this number was changed. -/
def Confined (iface : Int) (before after : Xfig) : Prop :=
  ∀ i : Fin maxIface, (i : Int) ≠ iface → after.nif i = before.nif i

theorem Confined.refl (iface : Int) (s : Xfig) : Confined iface s s := fun _ _ => rfl

/-- A field of the interface was set. -/
structure Kept (before after : Xfig) : Prop where
  iface : after.iface = before.iface
  phalf : after.phalf = before.phalf
  confined : Confined before.iface before after

theorem change_cases (s : Xfig) (setting : Fignif → Option Fignif) {ok : Prop}
    (sets : ∀ nif, (setting nif).isSome = true ↔ ok) :
    (((0 ≤ s.iface ∧ s.iface < maxIface) ∧ ok) ∧
        ∃ after, s.change s.iface setting = some after ∧ Kept s after) ∨
      (¬ ((0 ≤ s.iface ∧ s.iface < maxIface) ∧ ok) ∧ s.change s.iface setting = none) := by
  unfold Xfig.change
  by_cases inside : 0 ≤ s.iface ∧ s.iface < maxIface
  · rw [dif_pos inside]
    dsimp only
    have place : s.iface.toNat < maxIface := by omega
    cases changed : setting (s.nif ⟨s.iface.toNat, place⟩) with
    | none =>
        right
        refine ⟨fun both => ?_, rfl⟩
        have some := (sets (s.nif ⟨s.iface.toNat, place⟩)).mpr both.2
        rw [changed] at some
        cases some
    | some nif =>
        left
        refine ⟨⟨inside, (sets (s.nif ⟨s.iface.toNat, place⟩)).mp (by rw [changed]; rfl)⟩, _, rfl,
          rfl, rfl, ?_⟩
        intro i other
        apply Function.update_of_ne
        rintro rfl
        apply other
        dsimp only
        omega
  · right
    exact ⟨fun both => inside both.1, dif_neg inside⟩

/-- What a turn does for its statement. -/
structure Turned (s : Xfig) (st : Statement) (after : Xfig) : Prop where
  allowed : st.Allowed s.iface s.phalf.isSome
  iface : after.iface = st.selects s.iface
  half : after.phalf.isSome = halfAfter s.phalf.isSome st.keyword
  confined : Confined s.iface s after

/-- The field of a statement was set, or the statement is not one that is allowed. -/
def Effect (s : Xfig) (st : Statement) (effect : Option Xfig) : Prop :=
  (∃ after, effect = some after ∧ Turned s st after) ∨
    (effect = none ∧ ¬ st.Allowed s.iface s.phalf.isSome)

/-- That a name fits its field. -/
def Statement.Fits (st : Statement) : Prop :=
  st.keyword = some .ddname → ∀ value ∈ st.value, value.length ≤ ddnameLen

theorem Statement.allowed_iff {st : Statement} {half : Bool}
    (valued : takesValue half st.keyword = true → st.value.isSome = true)
    (sets : setsField half st.keyword = true) (iface : Int) :
    st.Allowed iface half ↔ (0 ≤ iface ∧ iface < maxIface) ∧ st.Fits := by
  constructor
  · intro allowed
    exact ⟨allowed.inside sets, allowed.fits⟩
  · rintro ⟨inside, fits⟩
    exact ⟨valued, fun _ => inside, fits⟩

theorem effect_of_change {s : Xfig} {st : Statement} {setting : Fignif → Option Fignif}
    (valued : takesValue s.phalf.isSome st.keyword = true → st.value.isSome = true)
    (field : setsField s.phalf.isSome st.keyword = true)
    (half : halfAfter s.phalf.isSome st.keyword = s.phalf.isSome)
    (sets : ∀ nif, (setting nif).isSome = true ↔ st.Fits) :
    Effect s st (s.change s.iface setting) := by
  have selects : st.selects s.iface = s.iface := by
    rw [Statement.selects, if_neg]
    intro same
    rw [same] at field
    cases field
  have allowed := Statement.allowed_iff valued field s.iface
  rcases change_cases s setting sets with ⟨both, after, changed, kept⟩ | ⟨notBoth, none⟩
  · left
    refine ⟨after, changed, allowed.mpr both, ?_, ?_, kept.confined⟩
    · rw [selects, kept.iface]
    · rw [half, kept.phalf]
  · exact Or.inr ⟨none, fun isAllowed => notBoth (allowed.mp isAllowed)⟩

/-- A statement that sets no field. -/
theorem effect_of_state {s after : Xfig} {st : Statement}
    (valued : takesValue s.phalf.isSome st.keyword = true → st.value.isSome = true)
    (field : setsField s.phalf.isSome st.keyword = false)
    (other : st.keyword = some .ddname → st.value = none)
    (iface : after.iface = st.selects s.iface)
    (half : after.phalf.isSome = halfAfter s.phalf.isSome st.keyword)
    (nif : after.nif = s.nif) : Effect s st (some after) := by
  left
  refine ⟨after, rfl, ⟨valued, ?_, ?_⟩, iface, half, ?_⟩
  · intro sets
    rw [field] at sets
    cases sets
  · intro isName value member
    rw [other isName] at member
    cases member
  · intro i _
    rw [nif]

theorem setCtchalf_isSome (setting : Ctchalf → Option Ctchalf) {ok : Prop}
    (sets : ∀ half, (setting half).isSome = true ↔ ok) (which : Half) (nif : Fignif) :
    (setCtchalf which setting nif).isSome = true ↔ ok := by
  unfold setCtchalf
  cases which with
  | read =>
      rw [Option.isSome_map]
      exact sets nif.read
  | write =>
      rw [Option.isSome_map]
      exact sets nif.write

theorem setDdname_isSome (value : Token) (half : Ctchalf) :
    (setDdname value half).isSome = true ↔ value.length ≤ ddnameLen := by
  unfold setDdname
  split_ifs with fits <;> simp [fits]

theorem fits_other {st : Statement} (other : st.keyword ≠ some .ddname)
    (setting : Fignif → Fignif) (nif : Fignif) :
    (some (setting nif)).isSome = true ↔ st.Fits :=
  iff_of_true rfl fun same => absurd same other

/-- A statement for a half that is selected. -/
theorem effect_of_half {s : Xfig} {half : Int × Half} (pointed : s.phalf = some half)
    {word : Keyword} {value : Token} {setting : Ctchalf → Option Ctchalf}
    (name : word = .ddname ∨ word = .cuu)
    (sets : ∀ part, (setting part).isSome = true ↔ (⟨some word, some value⟩ : Statement).Fits) :
    Effect s ⟨some word, some value⟩ (s.setHalf half setting) := by
  have own : half.1 = s.iface := s.own half pointed
  have isHalf : s.phalf.isSome = true := by
    rw [pointed]
    rfl
  rw [Xfig.setHalf, own]
  apply effect_of_change
  · exact fun _ => rfl
  · rw [isHalf]
    rcases name with rfl | rfl <;> rfl
  · rcases name with rfl | rfl <;> rfl
  · exact setCtchalf_isSome setting sets half.2

/-- What a turn does for the statement that begins with its token, as long as the value is
there. -/
theorem xfigToken_cases (s : Xfig) (ptoken : Token) (next : Option Token) :
    ∃ effect : Option Xfig,
      xfigToken s ptoken next =
        effect.map (fun after => (after, takesValue s.phalf.isSome (keyword ptoken))) ∧
      ∀ value, (takesValue s.phalf.isSome (keyword ptoken) = true →
          value = next ∧ next.isSome = true) →
        (takesValue s.phalf.isSome (keyword ptoken) = false → value = none) →
        Effect s ⟨keyword ptoken, value⟩ effect := by
  unfold xfigToken
  cases found : keyword ptoken with
  | none =>
      refine ⟨some s, rfl, fun value _ _ => ?_⟩
      exact effect_of_state (fun takes => by cases takes) rfl (fun same => by cases same) rfl rfl rfl
  | some word =>
      cases word with
      | iface =>
          refine ⟨next.map fun value => s.select (atoi value), by rw [Option.map_map]; rfl, ?_⟩
          intro value valued _
          obtain ⟨rfl, given⟩ := valued rfl
          obtain ⟨text, rfl⟩ := Option.isSome_iff_exists.mp given
          exact effect_of_state (fun _ => rfl) rfl (fun same => by cases same) rfl rfl rfl
      | enable | disable =>
          refine ⟨_, rfl, fun value _ _ => ?_⟩
          exact effect_of_change (fun takes => by cases takes) rfl rfl (fits_other (by simp) _)
      | type =>
          refine ⟨next.bind fun value => s.set (setType value), by rw [Option.map_bind]; rfl, ?_⟩
          intro value valued _
          obtain ⟨rfl, given⟩ := valued rfl
          obtain ⟨text, rfl⟩ := Option.isSome_iff_exists.mp given
          exact effect_of_change (fun _ => rfl) rfl rfl (fits_other (by simp) _)
      | ip | mask | defaultgw =>
          refine ⟨_, rfl, fun value valued _ => ?_⟩
          obtain ⟨rfl, given⟩ := valued rfl
          exact effect_of_change (fun _ => given) rfl rfl (fits_other (by simp) _)
      | half which =>
          refine ⟨some (s.point which), rfl, fun value _ _ => ?_⟩
          exact effect_of_state (fun takes => by cases takes) rfl (fun same => by cases same) rfl
            rfl rfl
      | ddname =>
          cases pointed : s.phalf with
          | none =>
              refine ⟨some s, rfl, fun value _ none => ?_⟩
              obtain rfl := none rfl
              exact effect_of_state (fun takes => by rw [pointed] at takes; cases takes)
                (by rw [pointed]; rfl) (fun _ => rfl) rfl (by rw [pointed]; rfl) rfl
          | some half =>
              refine ⟨next.bind fun value => s.setHalf half (setDdname value),
                by rw [Option.map_bind]; rfl, ?_⟩
              intro value valued _
              obtain ⟨rfl, given⟩ := valued rfl
              obtain ⟨text, rfl⟩ := Option.isSome_iff_exists.mp given
              apply effect_of_half pointed (Or.inl rfl)
              intro part
              rw [setDdname_isSome]
              exact ⟨fun fits _ value member => Option.some.inj member ▸ fits,
                fun fits => fits rfl text rfl⟩
      | cuu =>
          cases pointed : s.phalf with
          | none =>
              refine ⟨some s, rfl, fun value _ none => ?_⟩
              obtain rfl := none rfl
              exact effect_of_state (fun takes => by rw [pointed] at takes; cases takes)
                (by rw [pointed]; rfl) (fun same => by cases same) rfl (by rw [pointed]; rfl) rfl
          | some half =>
              refine ⟨next.bind fun value => s.setHalf half (setCuu value),
                by rw [Option.map_bind]; rfl, ?_⟩
              intro value valued _
              obtain ⟨rfl, given⟩ := valued rfl
              obtain ⟨text, rfl⟩ := Option.isSome_iff_exists.mp given
              apply effect_of_half pointed (Or.inr rfl)
              intro part
              exact iff_of_true rfl fun same => by cases same

/-! ## A list of tokens -/

/-- The states in front of the turns, and the one behind the last turn. -/
def states (s : Xfig) : List Token → List Xfig
  | [] => [s]
  | ptoken :: pptoken =>
      s :: match xfigToken s ptoken pptoken.head? with
        | none => []
        | some (s, false) => states s pptoken
        | some (s, true) =>
            match pptoken with
            | [] => []
            | _ :: later => states s later

/-- The statement at the head of the list: it is carried out and the loop goes on behind it, or it
is not allowed and there is no result. -/
theorem turn_cases (s : Xfig) (ptoken : Token) (pptoken : List Token) :
    ∃ st later, statements s.phalf.isSome (ptoken :: pptoken) =
        st :: statements (halfAfter s.phalf.isSome st.keyword) later ∧
      later.length ≤ pptoken.length ∧
      ((∃ after, xfigIface s (ptoken :: pptoken) = xfigIface after later ∧
          states s (ptoken :: pptoken) = s :: states after later ∧ Turned s st after) ∨
        (xfigIface s (ptoken :: pptoken) = none ∧ ¬ st.Allowed s.iface s.phalf.isSome)) := by
  obtain ⟨effect, turn, does⟩ := xfigToken_cases s ptoken pptoken.head?
  rw [xfigIface, states, turn]
  cases takes : takesValue s.phalf.isSome (keyword ptoken) with
  | false =>
      refine ⟨⟨keyword ptoken, none⟩, pptoken, statements_alone takes pptoken, le_refl _, ?_⟩
      rcases does none (by rw [takes]; intro impossible; cases impossible) (fun _ => rfl) with
        ⟨after, rfl, turned⟩ | ⟨rfl, denied⟩
      · exact Or.inl ⟨after, rfl, rfl, turned⟩
      · exact Or.inr ⟨rfl, denied⟩
  | true =>
      cases pptoken with
      | nil =>
          refine ⟨⟨keyword ptoken, none⟩, [], statements_missing takes, le_refl _, Or.inr ⟨?_, ?_⟩⟩
          · cases effect <;> rfl
          · intro allowed
            have given := allowed.valued takes
            cases given
      | cons value later =>
          refine ⟨⟨keyword ptoken, some value⟩, later, statements_valued takes value later,
            by simp, ?_⟩
          rcases does (some value) (fun _ => ⟨rfl, rfl⟩)
              (by rw [takes]; intro impossible; cases impossible) with
            ⟨after, rfl, turned⟩ | ⟨rfl, denied⟩
          · exact Or.inl ⟨after, rfl, rfl, turned⟩
          · exact Or.inr ⟨rfl, denied⟩

/-- A list that was worked off: the last of its states is the result, before each turn the
interface is selected that the statements say, and each turn leaves the other ones alone. -/
structure WorkedOff (s : Xfig) (tokens : List Token) : Prop where
  result : ∃ after, xfigIface s tokens = some after ∧ (states s tokens).getLast? = some after
  selected : (states s tokens).map Xfig.iface =
    selections s.iface (statements s.phalf.isSome tokens)
  confined : (states s tokens).IsChain fun before next => Confined before.iface before next

theorem worked_off_iff (tokens : List Token) (s : Xfig) :
    WorkedOff s tokens ↔ Allowed s.iface s.phalf.isSome (statements s.phalf.isSome tokens) := by
  induction count : tokens.length using Nat.strong_induction_on generalizing tokens s with
  | _ count ih =>
      cases tokens with
      | nil =>
          refine iff_of_true ⟨⟨s, rfl, rfl⟩, rfl, List.IsChain.singleton s⟩ trivial
      | cons ptoken pptoken =>
          rw [List.length_cons] at count
          obtain ⟨st, later, parsed, shorter, turn⟩ := turn_cases s ptoken pptoken
          rw [parsed]
          rcases turn with ⟨after, result, trace, turned⟩ | ⟨noResult, denied⟩
          · have rest := ih later.length (by omega) later after rfl
            rw [turned.half, turned.iface] at rest
            have head : ∃ others, states after later = after :: others := by
              cases later with
              | nil => exact ⟨[], rfl⟩
              | cons next later => exact ⟨_, by rw [states]⟩
            obtain ⟨others, begins⟩ := head
            constructor
            · intro worked
              obtain ⟨final, results, ends⟩ := worked.result
              have selected := worked.selected
              have confined := worked.confined
              rw [trace] at ends selected confined
              rw [parsed] at selected
              rw [begins, List.getLast?_cons_cons, ← begins] at ends
              rw [begins, List.isChain_cons_cons, ← begins] at confined
              refine ⟨turned.allowed, rest.mp ⟨⟨final, result ▸ results, ends⟩, ?_, confined.2⟩⟩
              rw [turned.half, turned.iface]
              exact (List.cons.inj selected).2
            · rintro ⟨_, allowed⟩
              obtain ⟨⟨final, results, ends⟩, selected, confined⟩ := rest.mpr allowed
              refine ⟨⟨final, result.trans results, ?_⟩, ?_, ?_⟩
              · rw [trace, begins, List.getLast?_cons_cons, ← begins]
                exact ends
              · rw [turned.half, turned.iface] at selected
                rw [trace, parsed, List.map_cons, selected]
                rfl
              · rw [trace, begins, List.isChain_cons_cons, ← begins]
                exact ⟨turned.confined, confined⟩
          · constructor
            · intro worked
              obtain ⟨final, results, _⟩ := worked.result
              rw [noResult] at results
              cases results
            · intro allowed
              exact absurd allowed.1 denied

/-! ## Names -/

/-- The characters of a token, and blanks up to the end of the field. -/
def Padded (ddname : List Char) : Prop :=
  ∃ text : Token, (∀ ch ∈ text, tokenChar ch = true) ∧
    ddname = text ++ List.replicate (ddnameLen - text.length) ' '

def Fignif.Padded (nif : Fignif) : Prop :=
  Config.Padded nif.read.ddname ∧ Config.Padded nif.write.ddname

def Xfig.Padded (s : Xfig) : Prop := ∀ i, (s.nif i).Padded

theorem padded_of_token {text : Token} (token : text.all tokenChar = true) :
    Padded (text ++ List.replicate (ddnameLen - text.length) ' ') :=
  ⟨text, List.all_eq_true.mp token, rfl⟩

theorem xconfig_padded : xconfig.Padded := by
  have loop := padded_of_token (by decide : ['L', 'O', 'O', 'P'].all tokenChar = true)
  have ctc500 := padded_of_token (by decide : ['C', 'T', 'C', '5', '0', '0'].all tokenChar = true)
  have ctc501 := padded_of_token (by decide : ['C', 'T', 'C', '5', '0', '1'].all tokenChar = true)
  have ctc502 := padded_of_token (by decide : ['C', 'T', 'C', '5', '0', '2'].all tokenChar = true)
  have ctc5053 :=
    padded_of_token (by decide : ['C', 'T', 'C', '5', '0', '5', '3'].all tokenChar = true)
  have ctc504 := padded_of_token (by decide : ['C', 'T', 'C', '5', '0', '4'].all tokenChar = true)
  have ctc505 := padded_of_token (by decide : ['C', 'T', 'C', '5', '0', '5'].all tokenChar = true)
  intro i
  fin_cases i
  · exact ⟨loop, loop⟩
  · exact ⟨ctc500, ctc501⟩
  · exact ⟨ctc502, ctc5053⟩
  · exact ⟨ctc504, ctc505⟩

theorem change_padded {s after : Xfig} {iface : Int} {setting : Fignif → Option Fignif}
    (sets : ∀ nif set, setting nif = some set → nif.Padded → set.Padded)
    (changed : s.change iface setting = some after) (padded : s.Padded) : after.Padded := by
  unfold Xfig.change at changed
  split_ifs at changed with inside
  obtain ⟨set, done, rfl⟩ := Option.map_eq_some_iff.mp changed
  intro i
  dsimp only
  by_cases same : i = ⟨iface.toNat, by omega⟩
  · rw [same, Function.update_self]
    exact sets _ set done (padded _)
  · rw [Function.update_of_ne same]
    exact padded i

theorem set_padded {s after : Xfig} {setting : Fignif → Fignif}
    (keeps : ∀ nif, (setting nif).read = nif.read ∧ (setting nif).write = nif.write)
    (changed : s.set setting = some after) (padded : s.Padded) : after.Padded := by
  refine change_padded (fun nif set done names => ?_) changed padded
  cases done
  rw [Fignif.Padded, (keeps nif).1, (keeps nif).2]
  exact names

theorem setHalf_padded {s after : Xfig} {half : Int × Half}
    {setting : Ctchalf → Option Ctchalf}
    (sets : ∀ part set, setting part = some set → Padded part.ddname → Padded set.ddname)
    (changed : s.setHalf half setting = some after) (padded : s.Padded) : after.Padded := by
  refine change_padded (fun nif set done names => ?_) changed padded
  obtain ⟨_, which⟩ := half
  unfold setCtchalf at done
  cases which with
  | read =>
      obtain ⟨part, made, rfl⟩ := Option.map_eq_some_iff.mp done
      exact ⟨sets _ part made names.1, names.2⟩
  | write =>
      obtain ⟨part, made, rfl⟩ := Option.map_eq_some_iff.mp done
      exact ⟨names.1, sets _ part made names.2⟩

theorem setType_keeps (value : Token) (nif : Fignif) :
    (setType value nif).read = nif.read ∧ (setType value nif).write = nif.write := by
  unfold setType
  split_ifs <;> exact ⟨rfl, rfl⟩

theorem setDdname_padded {value : Token} (token : ∀ ch ∈ value, tokenChar ch = true)
    {half set : Ctchalf} (done : setDdname value half = some set) : Padded set.ddname := by
  unfold setDdname at done
  split_ifs at done
  cases done
  exact ⟨value, token, rfl⟩

theorem xfigToken_padded {s after : Xfig} {ptoken : Token} {next : Option Token} {stepped : Bool}
    (token : ∀ value ∈ next, ∀ ch ∈ value, tokenChar ch = true)
    (turn : xfigToken s ptoken next = some (after, stepped)) (padded : s.Padded) :
    after.Padded := by
  unfold xfigToken at turn
  cases found : keyword ptoken with
  | none =>
      rw [found] at turn
      cases turn
      exact padded
  | some word =>
      rw [found] at turn
      cases word with
      | iface =>
          obtain ⟨value, _, done⟩ := Option.map_eq_some_iff.mp turn
          cases done
          exact padded
      | enable | disable | ip | mask | defaultgw =>
          obtain ⟨state, changed, done⟩ := Option.map_eq_some_iff.mp turn
          cases done
          exact set_padded (fun _ => by exact ⟨rfl, rfl⟩) changed padded
      | type =>
          obtain ⟨value, _, turn⟩ := Option.bind_eq_some_iff.mp turn
          obtain ⟨state, changed, done⟩ := Option.map_eq_some_iff.mp turn
          cases done
          exact set_padded (setType_keeps value) changed padded
      | half which =>
          cases turn
          exact padded
      | ddname =>
          cases pointed : s.phalf with
          | none =>
              simp only [pointed] at turn
              cases turn
              exact padded
          | some half =>
              simp only [pointed] at turn
              obtain ⟨value, given, turn⟩ := Option.bind_eq_some_iff.mp turn
              obtain ⟨state, changed, done⟩ := Option.map_eq_some_iff.mp turn
              cases done
              exact setHalf_padded (fun part set made _ => setDdname_padded (token value given) made)
                changed padded
      | cuu =>
          cases pointed : s.phalf with
          | none =>
              simp only [pointed] at turn
              cases turn
              exact padded
          | some half =>
              simp only [pointed] at turn
              obtain ⟨value, given, turn⟩ := Option.bind_eq_some_iff.mp turn
              obtain ⟨state, changed, done⟩ := Option.map_eq_some_iff.mp turn
              cases done
              refine setHalf_padded (fun part set made name => ?_) changed padded
              cases made
              exact name

/-- Names stay padded over the whole list, however far it is worked off. -/
theorem states_padded (tokens : List Token)
    (token : ∀ ptoken ∈ tokens, ∀ ch ∈ ptoken, tokenChar ch = true) (s : Xfig)
    (padded : s.Padded) : ∀ state ∈ states s tokens, state.Padded := by
  induction count : tokens.length using Nat.strong_induction_on generalizing tokens s with
  | _ count ih =>
      intro state member
      cases tokens with
      | nil =>
          rw [states, List.mem_singleton] at member
          exact member ▸ padded
      | cons ptoken pptoken =>
          rw [List.length_cons] at count
          have next : ∀ value ∈ pptoken.head?, ∀ ch ∈ value, tokenChar ch = true :=
            fun value given => token value (List.mem_cons_of_mem _ (List.mem_of_mem_head? given))
          rw [states] at member
          rcases List.mem_cons.mp member with rfl | member
          · exact padded
          · cases turn : xfigToken s ptoken pptoken.head? with
            | none =>
                rw [turn] at member
                cases member
            | some effect =>
                obtain ⟨after, stepped⟩ := effect
                have names := xfigToken_padded next turn padded
                rw [turn] at member
                cases stepped with
                | false =>
                    exact ih pptoken.length (by omega) pptoken
                      (fun other inside => token other (List.mem_cons_of_mem _ inside)) after names
                      rfl state member
                | true =>
                    cases pptoken with
                    | nil => cases member
                    | cons value later =>
                        rw [List.length_cons] at count
                        exact ih later.length (by omega) later
                          (fun other inside => token other
                            (List.mem_cons_of_mem _ (List.mem_cons_of_mem _ inside))) after names
                          rfl state member

/-! ## A line -/

/-- What a line is to do to the token list and to `Config`. -/
structure InBounds (s : Xfig) (pline : List Char) : Prop where
  stored : tokenize pline = some ((runs pline).take maxTokens)
  settled : ∀ tokens, tokenize pline = some tokens → WorkedOff s tokens
  padded : s.Padded → ∀ tokens, tokenize pline = some tokens →
    ∀ state ∈ states s tokens, state.Padded

/-- Any state and any line: it stays in bounds exactly if it has at most ten tokens and every one
of its statements is allowed. -/
theorem line_in_bounds_iff (s : Xfig) (pline : List Char) :
    InBounds s pline ↔ (runs pline).length ≤ maxTokens ∧
      Allowed s.iface s.phalf.isSome (statements s.phalf.isSome (runs pline)) := by
  have stored := tokenize_runs pline
  constructor
  · intro bounds
    have short : (runs pline).length ≤ maxTokens := by
      have same := Option.some.inj (stored.symm.trans bounds.stored)
      have lengths := congrArg List.length same
      rw [List.length_take, List.length_take] at lengths
      omega
    rw [List.take_of_length_le (by omega)] at stored
    exact ⟨short, (worked_off_iff _ s).mp (bounds.settled _ stored)⟩
  · rintro ⟨short, allowed⟩
    rw [List.take_of_length_le (by omega)] at stored
    refine ⟨?_, ?_, ?_⟩
    · rw [stored, List.take_of_length_le short]
    · intro tokens found
      obtain rfl := Option.some.inj (stored.symm.trans found)
      exact (worked_off_iff _ s).mpr allowed
    · intro padded tokens found
      obtain rfl := Option.some.inj (stored.symm.trans found)
      exact states_padded _ (runs_tokenChar pline) s padded

/-- The line `iface 7 enable` sets a field behind the last interface. -/
theorem interface_seven : ¬ ∀ s pline, InBounds s pline := by
  intro always
  have bounds := always xconfig ['i', 'f', 'a', 'c', 'e', ' ', '7', ' ', 'e', 'n', 'a', 'b', 'l', 'e']
  obtain ⟨after, result, _⟩ := (bounds.settled
    [['i', 'f', 'a', 'c', 'e'], ['7'], ['e', 'n', 'a', 'b', 'l', 'e']] (by decide)).result
  have outside : xfigIface xconfig [['i', 'f', 'a', 'c', 'e'], ['7'],
      ['e', 'n', 'a', 'b', 'l', 'e']] = none := by
    rfl
  rw [outside] at result
  cases result

end MvsXinu.Config
