import VaxListing.Opcode
import VaxListing.Fault

set_option relaxedAutoImplicit false
set_option autoImplicit false

/-!
# The instruction set

All defined opcodes, in the order of their codes, and the search for one of them.

## Main definitions

* `VaxListing.Opcode.table` — the instruction set.
* `VaxListing.Opcode.find?` — the opcode with a given code.
* `VaxListing.Opcode.lookup` — the same, with the fault that an undefined code stands for.
-/

namespace VaxListing.Opcode

/-! ## Abbreviations for the operand columns -/

private abbrev b : OperandType := .general .byte

private abbrev w : OperandType := .general .word

private abbrev l : OperandType := .general .long

private abbrev q : OperandType := .general .quad

private abbrev o : OperandType := .general .octa

private abbrev f : OperandType := .general .fFloat

private abbrev d : OperandType := .general .dFloat

private abbrev g : OperandType := .general .gFloat

private abbrev h : OperandType := .general .hFloat

private abbrev r8 : OperandType := .branch .byte

private abbrev r16 : OperandType := .branch .word

/-! ## The opcodes -/

/-- The opcodes of one byte. -/
def oneByte : List Opcode :=
  [
    ⟨0x00, "halt", []⟩,
    ⟨0x01, "nop", []⟩,
    ⟨0x02, "rei", []⟩,
    ⟨0x03, "bpt", []⟩,
    ⟨0x04, "ret", []⟩,
    ⟨0x05, "rsb", []⟩,
    ⟨0x06, "ldpctx", []⟩,
    ⟨0x07, "svpctx", []⟩,
    ⟨0x08, "cvtps", [w, b, w, b]⟩,
    ⟨0x09, "cvtsp", [w, b, w, b]⟩,
    ⟨0x0a, "index", [l, l, l, l, l, l]⟩,
    ⟨0x0b, "crc", [b, l, w, b]⟩,
    ⟨0x0c, "prober", [b, w, b]⟩,
    ⟨0x0d, "probew", [b, w, b]⟩,
    ⟨0x0e, "insque", [b, b]⟩,
    ⟨0x0f, "remque", [b, l]⟩,
    ⟨0x10, "bsbb", [r8]⟩,
    ⟨0x11, "brb", [r8]⟩,
    ⟨0x12, "bneq", [r8]⟩,
    ⟨0x13, "beql", [r8]⟩,
    ⟨0x14, "bgtr", [r8]⟩,
    ⟨0x15, "bleq", [r8]⟩,
    ⟨0x16, "jsb", [b]⟩,
    ⟨0x17, "jmp", [b]⟩,
    ⟨0x18, "bgeq", [r8]⟩,
    ⟨0x19, "blss", [r8]⟩,
    ⟨0x1a, "bgtru", [r8]⟩,
    ⟨0x1b, "blequ", [r8]⟩,
    ⟨0x1c, "bvc", [r8]⟩,
    ⟨0x1d, "bvs", [r8]⟩,
    ⟨0x1e, "bcc", [r8]⟩,
    ⟨0x1f, "blssu", [r8]⟩,
    ⟨0x20, "addp4", [w, b, w, b]⟩,
    ⟨0x21, "addp6", [w, b, w, b, w, b]⟩,
    ⟨0x22, "subp4", [w, b, w, b]⟩,
    ⟨0x23, "subp6", [w, b, w, b, w, b]⟩,
    ⟨0x24, "cvtpt", [w, b, b, w, b]⟩,
    ⟨0x25, "mulp", [w, b, w, b, w, b]⟩,
    ⟨0x26, "cvttp", [w, b, b, w, b]⟩,
    ⟨0x27, "divp", [w, b, w, b, w, b]⟩,
    ⟨0x28, "movc3", [w, b, b]⟩,
    ⟨0x29, "cmpc3", [w, b, b]⟩,
    ⟨0x2a, "scanc", [w, b, b, b]⟩,
    ⟨0x2b, "spanc", [w, b, b, b]⟩,
    ⟨0x2c, "movc5", [w, b, b, w, b]⟩,
    ⟨0x2d, "cmpc5", [w, b, b, w, b]⟩,
    ⟨0x2e, "movtc", [w, b, b, b, w, b]⟩,
    ⟨0x2f, "movtuc", [w, b, b, b, w, b]⟩,
    ⟨0x30, "bsbw", [r16]⟩,
    ⟨0x31, "brw", [r16]⟩,
    ⟨0x32, "cvtwl", [w, l]⟩,
    ⟨0x33, "cvtwb", [w, b]⟩,
    ⟨0x34, "movp", [w, b, b]⟩,
    ⟨0x35, "cmpp3", [w, b, b]⟩,
    ⟨0x36, "cvtpl", [w, b, l]⟩,
    ⟨0x37, "cmpp4", [w, b, w, b]⟩,
    ⟨0x38, "editpc", [w, b, b, b]⟩,
    ⟨0x39, "matchc", [w, b, w, b]⟩,
    ⟨0x3a, "locc", [b, w, b]⟩,
    ⟨0x3b, "skpc", [b, w, b]⟩,
    ⟨0x3c, "movzwl", [w, l]⟩,
    ⟨0x3d, "acbw", [w, w, w, r16]⟩,
    ⟨0x3e, "movaw", [w, l]⟩,
    ⟨0x3f, "pushaw", [w]⟩,
    ⟨0x40, "addf2", [f, f]⟩,
    ⟨0x41, "addf3", [f, f, f]⟩,
    ⟨0x42, "subf2", [f, f]⟩,
    ⟨0x43, "subf3", [f, f, f]⟩,
    ⟨0x44, "mulf2", [f, f]⟩,
    ⟨0x45, "mulf3", [f, f, f]⟩,
    ⟨0x46, "divf2", [f, f]⟩,
    ⟨0x47, "divf3", [f, f, f]⟩,
    ⟨0x48, "cvtfb", [f, b]⟩,
    ⟨0x49, "cvtfw", [f, w]⟩,
    ⟨0x4a, "cvtfl", [f, l]⟩,
    ⟨0x4b, "cvtrfl", [f, l]⟩,
    ⟨0x4c, "cvtbf", [b, f]⟩,
    ⟨0x4d, "cvtwf", [w, f]⟩,
    ⟨0x4e, "cvtlf", [l, f]⟩,
    ⟨0x4f, "acbf", [f, f, f, r16]⟩,
    ⟨0x50, "movf", [f, f]⟩,
    ⟨0x51, "cmpf", [f, f]⟩,
    ⟨0x52, "mnegf", [f, f]⟩,
    ⟨0x53, "tstf", [f]⟩,
    ⟨0x54, "emodf", [f, b, f, l, f]⟩,
    ⟨0x55, "polyf", [f, w, b]⟩,
    ⟨0x56, "cvtfd", [f, d]⟩,
    ⟨0x58, "adawi", [w, w]⟩,
    ⟨0x5c, "insqhi", [b, q]⟩,
    ⟨0x5d, "insqti", [b, q]⟩,
    ⟨0x5e, "remqhi", [q, l]⟩,
    ⟨0x5f, "remqti", [q, l]⟩,
    ⟨0x60, "addd2", [d, d]⟩,
    ⟨0x61, "addd3", [d, d, d]⟩,
    ⟨0x62, "subd2", [d, d]⟩,
    ⟨0x63, "subd3", [d, d, d]⟩,
    ⟨0x64, "muld2", [d, d]⟩,
    ⟨0x65, "muld3", [d, d, d]⟩,
    ⟨0x66, "divd2", [d, d]⟩,
    ⟨0x67, "divd3", [d, d, d]⟩,
    ⟨0x68, "cvtdb", [d, b]⟩,
    ⟨0x69, "cvtdw", [d, w]⟩,
    ⟨0x6a, "cvtdl", [d, l]⟩,
    ⟨0x6b, "cvtrdl", [d, l]⟩,
    ⟨0x6c, "cvtbd", [b, d]⟩,
    ⟨0x6d, "cvtwd", [w, d]⟩,
    ⟨0x6e, "cvtld", [l, d]⟩,
    ⟨0x6f, "acbd", [d, d, d, r16]⟩,
    ⟨0x70, "movd", [d, d]⟩,
    ⟨0x71, "cmpd", [d, d]⟩,
    ⟨0x72, "mnegd", [d, d]⟩,
    ⟨0x73, "tstd", [d]⟩,
    ⟨0x74, "emodd", [d, b, d, l, d]⟩,
    ⟨0x75, "polyd", [d, w, b]⟩,
    ⟨0x76, "cvtdf", [d, f]⟩,
    ⟨0x78, "ashl", [b, l, l]⟩,
    ⟨0x79, "ashq", [b, q, q]⟩,
    ⟨0x7a, "emul", [l, l, l, q]⟩,
    ⟨0x7b, "ediv", [l, q, l, l]⟩,
    ⟨0x7c, "clrd", [d]⟩,
    ⟨0x7d, "movq", [q, q]⟩,
    ⟨0x7e, "movaq", [q, l]⟩,
    ⟨0x7f, "pushaq", [q]⟩,
    ⟨0x80, "addb2", [b, b]⟩,
    ⟨0x81, "addb3", [b, b, b]⟩,
    ⟨0x82, "subb2", [b, b]⟩,
    ⟨0x83, "subb3", [b, b, b]⟩,
    ⟨0x84, "mulb2", [b, b]⟩,
    ⟨0x85, "mulb3", [b, b, b]⟩,
    ⟨0x86, "divb2", [b, b]⟩,
    ⟨0x87, "divb3", [b, b, b]⟩,
    ⟨0x88, "bisb2", [b, b]⟩,
    ⟨0x89, "bisb3", [b, b, b]⟩,
    ⟨0x8a, "bicb2", [b, b]⟩,
    ⟨0x8b, "bicb3", [b, b, b]⟩,
    ⟨0x8c, "xorb2", [b, b]⟩,
    ⟨0x8d, "xorb3", [b, b, b]⟩,
    ⟨0x8e, "mnegb", [b, b]⟩,
    ⟨0x8f, "caseb", [b, b, b]⟩,
    ⟨0x90, "movb", [b, b]⟩,
    ⟨0x91, "cmpb", [b, b]⟩,
    ⟨0x92, "mcomb", [b, b]⟩,
    ⟨0x93, "bitb", [b, b]⟩,
    ⟨0x94, "clrb", [b]⟩,
    ⟨0x95, "tstb", [b]⟩,
    ⟨0x96, "incb", [b]⟩,
    ⟨0x97, "decb", [b]⟩,
    ⟨0x98, "cvtbl", [b, l]⟩,
    ⟨0x99, "cvtbw", [b, w]⟩,
    ⟨0x9a, "movzbl", [b, l]⟩,
    ⟨0x9b, "movzbw", [b, w]⟩,
    ⟨0x9c, "rotl", [b, l, l]⟩,
    ⟨0x9d, "acbb", [b, b, b, r16]⟩,
    ⟨0x9e, "movab", [b, l]⟩,
    ⟨0x9f, "pushab", [b]⟩,
    ⟨0xa0, "addw2", [w, w]⟩,
    ⟨0xa1, "addw3", [w, w, w]⟩,
    ⟨0xa2, "subw2", [w, w]⟩,
    ⟨0xa3, "subw3", [w, w, w]⟩,
    ⟨0xa4, "mulw2", [w, w]⟩,
    ⟨0xa5, "mulw3", [w, w, w]⟩,
    ⟨0xa6, "divw2", [w, w]⟩,
    ⟨0xa7, "divw3", [w, w, w]⟩,
    ⟨0xa8, "bisw2", [w, w]⟩,
    ⟨0xa9, "bisw3", [w, w, w]⟩,
    ⟨0xaa, "bicw2", [w, w]⟩,
    ⟨0xab, "bicw3", [w, w, w]⟩,
    ⟨0xac, "xorw2", [w, w]⟩,
    ⟨0xad, "xorw3", [w, w, w]⟩,
    ⟨0xae, "mnegw", [w, w]⟩,
    ⟨0xaf, "casew", [w, w, w]⟩,
    ⟨0xb0, "movw", [w, w]⟩,
    ⟨0xb1, "cmpw", [w, w]⟩,
    ⟨0xb2, "mcomw", [w, w]⟩,
    ⟨0xb3, "bitw", [w, w]⟩,
    ⟨0xb4, "clrw", [w]⟩,
    ⟨0xb5, "tstw", [w]⟩,
    ⟨0xb6, "incw", [w]⟩,
    ⟨0xb7, "decw", [w]⟩,
    ⟨0xb8, "bispsw", [w]⟩,
    ⟨0xb9, "bicpsw", [w]⟩,
    ⟨0xba, "popr", [w]⟩,
    ⟨0xbb, "pushr", [w]⟩,
    ⟨0xbc, "chmk", [w]⟩,
    ⟨0xbd, "chme", [w]⟩,
    ⟨0xbe, "chms", [w]⟩,
    ⟨0xbf, "chmu", [w]⟩,
    ⟨0xc0, "addl2", [l, l]⟩,
    ⟨0xc1, "addl3", [l, l, l]⟩,
    ⟨0xc2, "subl2", [l, l]⟩,
    ⟨0xc3, "subl3", [l, l, l]⟩,
    ⟨0xc4, "mull2", [l, l]⟩,
    ⟨0xc5, "mull3", [l, l, l]⟩,
    ⟨0xc6, "divl2", [l, l]⟩,
    ⟨0xc7, "divl3", [l, l, l]⟩,
    ⟨0xc8, "bisl2", [l, l]⟩,
    ⟨0xc9, "bisl3", [l, l, l]⟩,
    ⟨0xca, "bicl2", [l, l]⟩,
    ⟨0xcb, "bicl3", [l, l, l]⟩,
    ⟨0xcc, "xorl2", [l, l]⟩,
    ⟨0xcd, "xorl3", [l, l, l]⟩,
    ⟨0xce, "mnegl", [l, l]⟩,
    ⟨0xcf, "casel", [l, l, l]⟩,
    ⟨0xd0, "movl", [l, l]⟩,
    ⟨0xd1, "cmpl", [l, l]⟩,
    ⟨0xd2, "mcoml", [l, l]⟩,
    ⟨0xd3, "bitl", [l, l]⟩,
    ⟨0xd4, "clrf", [f]⟩,
    ⟨0xd5, "tstl", [l]⟩,
    ⟨0xd6, "incl", [l]⟩,
    ⟨0xd7, "decl", [l]⟩,
    ⟨0xd8, "adwc", [l, l]⟩,
    ⟨0xd9, "sbwc", [l, l]⟩,
    ⟨0xda, "mtpr", [l, l]⟩,
    ⟨0xdb, "mfpr", [l, l]⟩,
    ⟨0xdc, "movpsl", [l]⟩,
    ⟨0xdd, "pushl", [l]⟩,
    ⟨0xde, "moval", [l, l]⟩,
    ⟨0xdf, "pushal", [l]⟩,
    ⟨0xe0, "bbs", [l, b, r8]⟩,
    ⟨0xe1, "bbc", [l, b, r8]⟩,
    ⟨0xe2, "bbss", [l, b, r8]⟩,
    ⟨0xe3, "bbcs", [l, b, r8]⟩,
    ⟨0xe4, "bbsc", [l, b, r8]⟩,
    ⟨0xe5, "bbcc", [l, b, r8]⟩,
    ⟨0xe6, "bbssi", [l, b, r8]⟩,
    ⟨0xe7, "bbcci", [l, b, r8]⟩,
    ⟨0xe8, "blbs", [l, r8]⟩,
    ⟨0xe9, "blbc", [l, r8]⟩,
    ⟨0xea, "ffs", [l, b, b, l]⟩,
    ⟨0xeb, "ffc", [l, b, b, l]⟩,
    ⟨0xec, "cmpv", [l, b, b, l]⟩,
    ⟨0xed, "cmpzv", [l, b, b, l]⟩,
    ⟨0xee, "extv", [l, b, b, l]⟩,
    ⟨0xef, "extzv", [l, b, b, l]⟩,
    ⟨0xf0, "insv", [l, l, b, b]⟩,
    ⟨0xf1, "acbl", [l, l, l, r16]⟩,
    ⟨0xf2, "aoblss", [l, l, r8]⟩,
    ⟨0xf3, "aobleq", [l, l, r8]⟩,
    ⟨0xf4, "sobgeq", [l, r8]⟩,
    ⟨0xf5, "sobgtr", [l, r8]⟩,
    ⟨0xf6, "cvtlb", [l, b]⟩,
    ⟨0xf7, "cvtlw", [l, w]⟩,
    ⟨0xf8, "ashp", [b, w, b, b, w, b]⟩,
    ⟨0xf9, "cvtlp", [l, w, b]⟩,
    ⟨0xfa, "callg", [b, b]⟩,
    ⟨0xfb, "calls", [l, b]⟩,
    ⟨0xfc, "xfc", []⟩
  ]

/-- The opcodes behind the escape byte `0xfd`. -/
def extended : List Opcode :=
  [
    ⟨0xfd32, "cvtdh", [d, h]⟩,
    ⟨0xfd33, "cvtgf", [g, f]⟩,
    ⟨0xfd40, "addg2", [g, g]⟩,
    ⟨0xfd41, "addg3", [g, g, g]⟩,
    ⟨0xfd42, "subg2", [g, g]⟩,
    ⟨0xfd43, "subg3", [g, g, g]⟩,
    ⟨0xfd44, "mulg2", [g, g]⟩,
    ⟨0xfd45, "mulg3", [g, g, g]⟩,
    ⟨0xfd46, "divg2", [g, g]⟩,
    ⟨0xfd47, "divg3", [g, g, g]⟩,
    ⟨0xfd48, "cvtgb", [g, b]⟩,
    ⟨0xfd49, "cvtgw", [g, w]⟩,
    ⟨0xfd4a, "cvtgl", [g, l]⟩,
    ⟨0xfd4b, "cvtrgl", [g, l]⟩,
    ⟨0xfd4c, "cvtbg", [b, g]⟩,
    ⟨0xfd4d, "cvtwg", [w, g]⟩,
    ⟨0xfd4e, "cvtlg", [l, g]⟩,
    ⟨0xfd4f, "acbg", [g, g, g, r16]⟩,
    ⟨0xfd50, "movg", [g, g]⟩,
    ⟨0xfd51, "cmpg", [g, g]⟩,
    ⟨0xfd52, "mnegg", [g, g]⟩,
    ⟨0xfd53, "tstg", [g]⟩,
    ⟨0xfd54, "emodg", [g, w, g, l, g]⟩,
    ⟨0xfd55, "polyg", [g, w, b]⟩,
    ⟨0xfd56, "cvtgh", [g, h]⟩,
    ⟨0xfd60, "addh2", [h, h]⟩,
    ⟨0xfd61, "addh3", [h, h, h]⟩,
    ⟨0xfd62, "subh2", [h, h]⟩,
    ⟨0xfd63, "subh3", [h, h, h]⟩,
    ⟨0xfd64, "mulh2", [h, h]⟩,
    ⟨0xfd65, "mulh3", [h, h, h]⟩,
    ⟨0xfd66, "divh2", [h, h]⟩,
    ⟨0xfd67, "divh3", [h, h, h]⟩,
    ⟨0xfd68, "cvthb", [h, b]⟩,
    ⟨0xfd69, "cvthw", [h, w]⟩,
    ⟨0xfd6a, "cvthl", [h, l]⟩,
    ⟨0xfd6b, "cvtrhl", [h, l]⟩,
    ⟨0xfd6c, "cvtbh", [b, h]⟩,
    ⟨0xfd6d, "cvtwh", [w, h]⟩,
    ⟨0xfd6e, "cvtlh", [l, h]⟩,
    ⟨0xfd6f, "acbh", [h, h, h, r16]⟩,
    ⟨0xfd70, "movh", [h, h]⟩,
    ⟨0xfd71, "cmph", [h, h]⟩,
    ⟨0xfd72, "mnegh", [h, h]⟩,
    ⟨0xfd73, "tsth", [h]⟩,
    ⟨0xfd74, "emodh", [h, w, h, l, h]⟩,
    ⟨0xfd75, "polyh", [h, w, b]⟩,
    ⟨0xfd76, "cvthg", [h, g]⟩,
    ⟨0xfd7c, "clrh", [h]⟩,
    ⟨0xfd7d, "movo", [o, o]⟩,
    ⟨0xfd7e, "movah", [h, l]⟩,
    ⟨0xfd7f, "pushah", [h]⟩,
    ⟨0xfd98, "cvtfh", [f, h]⟩,
    ⟨0xfd99, "cvtfg", [f, g]⟩,
    ⟨0xfdf6, "cvthf", [h, f]⟩,
    ⟨0xfdf7, "cvthd", [h, d]⟩
  ]

/-- The opcodes behind the escape byte `0xff`. -/
def bugcheck : List Opcode :=
  [
    ⟨0xfffd, "bugl", [l]⟩,
    ⟨0xfffe, "bugw", [w]⟩
  ]

/-- The instruction set, in the order of the codes. -/
def table : List Opcode :=
  oneByte ++ extended ++ bugcheck

/-- The opcode with a given code, if the code is defined. -/
def find? (code : UInt16) : Option Opcode :=
  table.find? (·.code == code)

/-- The opcode with a given code; an undefined code is a fault. -/
def lookup (code : UInt16) : Except ArchFault Opcode :=
  match find? code with
  | some op => .ok op
  | none => .error (.unknownOpcode code)

end VaxListing.Opcode
