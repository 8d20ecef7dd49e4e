import TensorEngine.Proofs.Kernel.LoneCreation
import TensorEngine.Proofs.Kernel.SoundCreation

/-!
Contract: operators that look bytes up map each of them by the function of their node.

Owns:
- `UnaryFunction.Maps`, the byte that a function has for a byte, and the theorem that every entry of
  a table is that byte;
- `Node.MapsCodes`, the function of a node and what it is applied between;
- the theorem that an operator made alone for a node of a tabulated function looks bytes up in the
  table of its own node;
- the theorem that a run of such an operator maps every byte.

Does not own: compilations that share tables.
-/

namespace TensorEngine

open Making TensorEngine.Numeric

/-! ## Entries of tables -/

namespace UnaryFunction

variable {function : UnaryFunction} {element : ElementType} {input output : Quantization}

/-- A byte holds the code that a function has for the code in another byte: that one is dequantized,
the function is applied, and its value is quantized over the whole range of the storage type. -/
def Maps (function : UnaryFunction) (element : ElementType) (input output : Quantization)
    (byte result : UInt8) : Prop :=
  ∃ number code, input.dequantize (codeOfByte element byte) = .ok number ∧
    output.quantize (function.apply number) element.codeRange.1 element.codeRange.2 = .ok code ∧
    codeOfByte element result = code

theorem toNat_word (code : Int32) : (code.toUInt32.toNat : Int) = code.toInt % 2 ^ 32 := by
  have bits : code.toInt = if 2 * code.toUInt32.toNat < 2 ^ 32 then (code.toUInt32.toNat : Int)
      else (code.toUInt32.toNat : Int) - (2 ^ 32 : Nat) := BitVec.toInt_eq_toNat_cond code.toBitVec
  have short := code.toUInt32.toNat_lt
  rw [bits]
  split <;> omega

/-- What a byte denotes as a signed code. -/
theorem toInt_signed (byte : UInt8) :
    byte.toInt8.toInt = if byte.toNat < 128 then (byte.toNat : Int) else byte.toNat - 256 := by
  have bits : byte.toInt8.toInt = if 2 * byte.toNat < 2 ^ 8 then (byte.toNat : Int)
      else (byte.toNat : Int) - (2 ^ 8 : Nat) := BitVec.toInt_eq_toNat_cond byte.toBitVec
  rw [bits]
  split <;> split <;> omega

theorem codeOfByte_toInt (coded : element.IsByteCode) (byte : UInt8) :
    (codeOfByte element byte).toInt =
      if byte.toNat < 128 ∨ element = .quint8 then (byte.toNat : Int) else byte.toNat - 256 := by
  have short := byte.toNat_lt
  unfold codeOfByte
  rcases coded with rfl | rfl
  · rw [if_pos rfl, Int8.toInt_toInt32, toInt_signed]
    simp
  · rw [if_neg (by decide), Int32.toInt_ofNat_of_lt (by omega), if_pos (.inr rfl)]

/-- Different bytes hold different codes. -/
theorem codeOfByte_injective (coded : element.IsByteCode) :
    Function.Injective (codeOfByte element) := by
  intro byte other same
  have short := byte.toNat_lt
  have shortOther := other.toNat_lt
  rw [← Int32.toInt_inj, codeOfByte_toInt coded, codeOfByte_toInt coded] at same
  apply UInt8.toNat_inj.mp
  split at same <;> split at same <;> omega

/-- The low byte of a code of a storage type holds that code. -/
theorem codeOfByte_low (coded : element.IsByteCode) {code : Int32}
    (least : element.codeRange.1 ≤ code) (greatest : code ≤ element.codeRange.2) :
    codeOfByte element code.toUInt32.toUInt8 = code := by
  have word := toNat_word code
  rw [Int32.le_iff_toInt_le] at least greatest
  rw [← Int32.toInt_inj, codeOfByte_toInt coded, UInt32.toNat_toUInt8]
  rcases coded with rfl | rfl
  · change -128 ≤ code.toInt at least
    change code.toInt ≤ 127 at greatest
    split <;> simp at * <;> omega
  · change 0 ≤ code.toInt at least
    change code.toInt ≤ 255 at greatest
    rw [if_pos (.inr rfl)]
    omega

theorem maps_of_tableEntry (coded : element.IsByteCode) {byte entry : UInt8}
    (filled : function.tableEntry element input output element.codeRange.1 element.codeRange.2
      byte = .ok entry) : function.Maps element input output byte entry := by
  obtain ⟨number, denoted, filled⟩ := bind_eq_ok_iff.mp filled
  obtain ⟨code, quantized, filled⟩ := bind_eq_ok_iff.mp filled
  cases filled
  have short : |element.codeRange.1.toInt| ≤ 2 ^ 24 ∧ |element.codeRange.2.toInt| ≤ 2 ^ 24 := by
    rcases coded with rfl | rfl <;> decide
  obtain ⟨least, greatest⟩ := Quantization.quantize_inside short.1 short.2 quantized
  exact ⟨number, code, denoted, quantized, codeOfByte_low coded least greatest⟩

theorem maps_of_tabulate (coded : element.IsByteCode) {table : LookupTable}
    (filled : function.tabulate element input output = .ok table) (byte : UInt8) :
    function.Maps element input output byte (table.entry byte) := by
  obtain ⟨ranged, _⟩ := coded.range
  unfold tabulate at filled
  rw [ranged] at filled
  have entry := getElem_of_ofFnM (mapError_eq_ok_iff.mp filled) ⟨byte.toNat, byte.toNat_lt⟩
  rw [UInt8.ofNat_toNat] at entry
  exact maps_of_tableEntry coded entry

end UnaryFunction

/-! ## Operators with tables -/

/-- The kinds whose functions are tabulated over codes. -/
def OpKind.IsTabulated (kind : OpKind) : Prop :=
  kind = .sigmoid ∨ kind = .tanh ∨ kind = .leakyRelu

theorem OpKind.IsTabulated.isMapping {kind : OpKind} (tabulated : kind.IsTabulated) :
    kind.MapsElements ∧ kind ≠ .clamp := by
  rcases tabulated with rfl | rfl | rfl <;> decide

theorem OpKind.IsTabulated.function {kind : OpKind} (tabulated : kind.IsTabulated)
    {params : OpParams} {function : UnaryFunction}
    (chosen : UnaryFunction.ofNode kind params = .ok function) :
    function = .sigmoid ∨ function = .tanh ∨ ∃ slope, function = .leakyRelu slope := by
  rcases tabulated with rfl | rfl | rfl
  · cases chosen
    exact .inl rfl
  · cases chosen
    exact .inr (.inl rfl)
  · cases params with
    | negativeSlope slope =>
        cases chosen
        exact .inr (.inr ⟨slope, rfl⟩)
    | _ => cases chosen

/-- A node applies this function to codes of this storage type, from the parameters of its input to
those of its output. -/
structure Node.MapsCodes (node : Node) (values : List Value) (function : UnaryFunction)
    (element : ElementType) (input output : Quantization) : Prop where
  chosen : UnaryFunction.ofNode node.kind node.params = .ok function
  input : ∃ value, node.operand? values 0 = some value ∧ value.element = element ∧
    value.quantization = some input
  output : ∃ value, node.result? values = some value ∧ value.element = element ∧
    value.quantization = some output
  coded : element.IsByteCode

/-- A body that looks codes up in the table of a node. -/
def MappingBody.LooksUpFor (body : MappingBody) (node : Node) (values : List Value) : Prop :=
  ∃ function element source target table, node.MapsCodes values function element source target ∧
    function.tabulate element source target = .ok table ∧ body = .lookUp table

namespace Mapping

variable {context : CreateContext} {function : UnaryFunction}

/-- The body for codes of a tabulated function is its table. -/
theorem codeBody_looksUp (tabulated : context.node.kind.IsTabulated)
    (chosen : UnaryFunction.ofNode context.node.kind context.node.params = .ok function)
    {element : ElementType} (computed : ComputeType.ofElement? element = some context.node.compute)
    (source target : Quantization) :
    (codeBody context context.node.compute function element source target).Keeps
      (fun _ code => TabulatedByKey code)
      (fun body => ∃ table, body = .lookUp table ∧
        function.tabulate element source target = .ok table) := by
  have own : (function.tableKey ⟨context.node.kind, context.node.compute⟩ source target
      context.features).TableOf function element source target :=
    ⟨⟨_, chosen⟩, tabulated.isMapping.2, computed, rfl⟩
  have filled := table_keeps own
  rcases tabulated.function chosen with rfl | rfl | ⟨slope, rfl⟩
  · exact filled.bind fun table own => Keeps.pure ⟨table, rfl, own⟩
  · exact filled.bind fun table own => Keeps.pure ⟨table, rfl, own⟩
  · exact filled.bind fun table own => Keeps.pure ⟨table, rfl, own⟩

variable {operands : List Value} {output : Value} (admits : context.Admits operands output)
  (tabulated : context.node.kind.IsTabulated)
  (coded : context.node.compute = .qs8 ∨ context.node.compute = .qu8)

include admits tabulated coded

theorem scaledBody_looksUp
    (chosen : UnaryFunction.ofNode context.node.kind context.node.params = .ok function) :
    (scaledBody context context.node.compute function).Keeps (fun _ code => TabulatedByKey code)
      (fun body => body.LooksUpFor context.node context.values) := by
  obtain ⟨⟨_, notConvert⟩, _⟩ := tabulated.isMapping
  have notProduct : context.node.kind ≠ .fullyConnected := by
    rcases tabulated with kind | kind | kind <;> rw [kind] <;> decide
  obtain ⟨_, computed⟩ := admits.node.computed notConvert
  have byte : output.element.IsByteCode := by
    rcases OpKind.ofElement?_eq_some_iff.mp computed with
      ⟨_, single⟩ | ⟨_, half⟩ | ⟨element, _⟩ | ⟨element, _⟩
    · rw [single] at coded
      rcases coded with impossible | impossible <;> cases impossible
    · rw [half] at coded
      rcases coded with impossible | impossible <;> cases impossible
    · exact .inl element
    · exact .inr element
  refine (Keeps.ofOutcome fun input given => given).bind fun input found => ?_
  refine (Keeps.ofOutcome fun result given => given).bind fun result foundOutput => ?_
  cases admits.output_eq.symm.trans foundOutput
  obtain ⟨_, element⟩ := admits.reads notConvert notProduct found
  split
  · rename_i source target quantized quantizedOutput
    refine (codeBody_looksUp tabulated chosen computed source target).mono ?_
    rintro body ⟨table, same, filled⟩
    exact ⟨function, output.element, source, target, table,
      ⟨chosen, ⟨input, CreateContext.input_eq_operand?.mp found, element, quantized⟩,
        ⟨output, CreateContext.output_eq_result?.mp foundOutput, rfl, quantizedOutput⟩, byte⟩,
      filled, same⟩
  · exact Keeps.ofOutcome fun _ failed => (nomatch failed)

/-- A mapping of codes by a tabulated function looks them up in the table of its node. -/
theorem factory_looksUp (lanes : Nat) :
    ((factory context.node.compute lanes).create context).Keeps
      (fun _ code => TabulatedByKey code)
      (fun mapping => mapping.body.LooksUpFor context.node context.values) := by
  refine (Keeps.ofOutcome fun function chosen => chosen).bind fun function chosen => ?_
  have scaled := scaledBody_looksUp admits tabulated coded chosen
  have body : (makeBody context context.node.compute function).Keeps
      (fun _ code => TabulatedByKey code)
      (fun body => body.LooksUpFor context.node context.values) := by
    rcases coded with compute | compute
    · rw [compute] at scaled ⊢
      exact scaled
    · rw [compute] at scaled ⊢
      exact scaled
  exact body.bind fun body made => Keeps.pure made

end Mapping

namespace StandardOperator

def table? : StandardOperator → Option LookupTable
  | mapping operator =>
      match operator.body with
      | .lookUp table => some table
      | _ => none
  | _ => none

theorem table?_plain (operator : StandardOperator) : operator.plain.table? = operator.table? := by
  cases operator <;> rfl

theorem table?_blank (operator : StandardOperator) : operator.blank.table? = operator.table? := by
  cases operator <;> rfl

theorem table?_eq_some_iff {operator : StandardOperator} {table : LookupTable} :
    operator.table? = some table ↔ ∃ made, operator = mapping made ∧ made.body = .lookUp table := by
  constructor
  · intro found
    cases operator with
    | mapping made =>
        unfold table? at found
        dsimp only at found
        split at found
        · rename_i other same
          cases found
          exact ⟨made, rfl, same⟩
        · cases found
    | _ => cases found
  · rintro ⟨made, rfl, same⟩
    unfold table?
    dsimp only
    rw [same]

/-- What is made alone for a tabulated function looks bytes up in the table of its node. -/
theorem MadeAlone.looksUp {operator : StandardOperator} {node : Node} {values operands : List Value}
    {output : Value} (made : operator.MadeAlone node values)
    (admits : CreateContext.Admits ⟨node, values, .portable, 1⟩ operands output)
    (tabulated : node.kind.IsTabulated) (coded : node.compute = .qs8 ∨ node.compute = .qu8) :
    ∃ function element source target table, node.MapsCodes values function element source target ∧
      function.tabulate element source target = .ok table ∧ operator.table? = some table := by
  obtain ⟨alone, after, ran, same⟩ := made
  obtain ⟨⟨unary, notConvert⟩, _⟩ := tabulated.isMapping
  rw [portableFactory_mapping unary notConvert] at ran
  have keeps : (((Mapping.factory node.compute 1).map mapping).create
      ⟨node, values, .portable, 1⟩).Keeps (fun _ code => TabulatedByKey code)
      (fun operator => ∃ made, operator = mapping made ∧ made.body.LooksUpFor node values) :=
    (Mapping.factory_looksUp admits tabulated coded 1).map fun made looksUp => ⟨made, rfl, looksUp⟩
  obtain ⟨mapping, rfl, function, element, source, target, table, maps, filled, body⟩ :=
    (keeps {} (tabulatedByKey_of_empty fun _ present => (nomatch present))).2 alone (by
      show Prod.fst _ = _
      exact congrArg Prod.fst ran)
  refine ⟨function, element, source, target, table, maps, filled, ?_⟩
  rw [← table?_plain, same, table?_plain]
  exact table?_eq_some_iff.mpr ⟨mapping, rfl, body⟩

end StandardOperator

/-! ## Runs -/

namespace StandardOperator

variable {operator : StandardOperator} {table : LookupTable}

/-- An operator with a table can be set up for any two shapes of equally many elements. -/
theorem exists_setup_of_table (found : operator.table? = some table) {inputs : List Shape}
    {input output : Shape} (first : inputs[0]? = some input)
    (sameCount : input.elementCount = output.elementCount) :
    ∃ ready, operator.setup inputs output = (ready, .ok ()) ∧ ready.table? = some table ∧
      ready.elementCount = output.elementCount := by
  obtain ⟨made, rfl, body⟩ := table?_eq_some_iff.mp found
  have shared : sharedCount made.kind inputs output = .ok output.elementCount := by
    unfold sharedCount
    rw [operand_eq_ok_iff.mpr first]
    show (if input.elementCount = output.elementCount then _ else _ : Outcome Nat) = _
    rw [if_pos sameCount, sameCount]
    rfl
  refine ⟨mapping { made with count := output.elementCount }, ?_,
    table?_eq_some_iff.mpr ⟨_, rfl, body⟩, rfl⟩
  unfold setup Mapping.setup
  dsimp only
  rw [shared]
  rfl

/-- An operator with a table writes the entry of every byte. -/
theorem contents_of_table (found : operator.table? = some table) (schedule : Schedule)
    {inputs : List Buffer} {input output : Buffer} (first : inputs[0]? = some input)
    (enough : operator.elementCount ≤ input.size) (room : operator.elementCount ≤ output.size) :
    operator.contents schedule inputs output =
      .ok ((input.bytes.extract 0 operator.elementCount).map table.entry) := by
  obtain ⟨made, rfl, body⟩ := table?_eq_some_iff.mp found
  unfold contents Mapping.contents
  dsimp only
  rw [body]
  exact mapElements_bytes table.entry schedule _ 1 first enough room

end StandardOperator

end TensorEngine
