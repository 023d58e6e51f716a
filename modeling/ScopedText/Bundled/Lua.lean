import ScopedText.Regex.Search
import ScopedText.Settings

/-!
# The bundled Lua grammar

A grammar for Lua 5.1 with comments and operators in the style of C, and the settings that go with
it.
-/

namespace ScopedText.Bundled

/-- A pattern that is written in lines. -/
def joinLines (lines : List String) : String := "\n".intercalate lines

def luaDefinitions : NameMap String := .ofList [
  ("identifier", "[a-zA-Z_]\\w*"),
  ("not_scoped", "(?<!^\\.|[^.]\\.|:)"),
  ("scoped", "(?<=^\\.|[^.]\\.|:)")]

def luaRules : List Source.Rule := [
  { comment := "C-style single-line comments"
    name := "comment.line.double-slash.lua"
    opening := "//"
    closing := "\\n" },
  { comment := "C-style block comments"
    name := "comment.block.lua"
    opening := "/\\*"
    closing := "\\*/" },
  { name := "keyword.control.lua"
    single := "\\bcontinue\\b" },
  { comment := "C-style logical operators"
    name := "keyword.operator.lua"
    single := "&&|\\|\x7b2\x7d|!" },
  { comment := "Function definitions, the parameters are matched one character at a time"
    name := "meta.function.lua"
    opening := joinLines [
      "(?x)",
      "\\b ( function )",
      "(?:",
      "    \\s+ ( (?: \x7b\x7bidentifier\x7d\x7d [.:] )* )   # scope",
      "    ( \x7b\x7bidentifier\x7d\x7d ) \\s*               # name",
      ")?",
      "\\("]
    openingCaptures := .ofNames [
      {},
      { name := "keyword.control.lua" },
      { name := "entity.name.function.scope.lua" },
      { name := "entity.name.function.lua" }]
    closing := "\\)"
    closingLast := some 0
    rules := [
      { name := "variable.parameter.function.lua"
        single := "[^,]" }] },
  { name := "constant.numeric.lua"
    single := joinLines [
      "(?x)",
      "\\b (",
      "    0[xX] [\\da-fA-F]+                # hexadecimal",
      "  | \\d* \\. \\d+ ( [eE] [-+]? \\d+ )?   # decimal, optional exponent",
      "  | \\d+ ( [eE] [-+]? \\d+ )?           # integer, optional exponent",
      ")"] },
  { name := "constant.language.lua"
    single := joinLines [
      "(?x)",
      "\\b (",
      "    nil | true | false | _G | _VERSION | math \\. ( pi | huge )",
      ") \\b",
      "| \\.\x7b3\x7d"] },
  { name := "string.quoted.single.lua"
    opening := "'"
    closing := "'"
    rules := [
      { included := "#escaped_chars" }] },
  { name := "string.quoted.double.lua"
    opening := "\""
    closing := "\""
    rules := [
      { included := "#escaped_chars" }] },
  { comment := "The lookbehind leaves `--[[` to the block comments"
    name := "string.quotes.other.multiline.lua"
    opening := "(?<!--)\\[(=*)\\["
    closing := "\\]\\1\\]" },
  { name := "comment.block.lua"
    opening := "--\\[(=*)\\["
    closing := "\\]\\1\\]" },
  { name := "comment.line.double-dash.lua"
    opening := "--"
    closing := "\\n" },
  { name := "keyword.control.lua"
    single := joinLines [
      "(?x)",
      "\\b (",
      "    break | do | else | for | if | elseif | return | then",
      "  | repeat | while | until | end | function | local | in",
      "  | goto",
      ") \\b"] },
  { name := "keyword.operator.lua"
    single := joinLines [
      "(?x)",
      "    \\+ | - | \\* | / | \\^ | %       # arithmetic",
      "  | \\#                             # length",
      "  | ==? | ~= | <=? | >=?           # comparison",
      "  | \\b ( and | or | not ) \\b      # boolean",
      "  | (?<! \\. ) \\.\x7b2\x7d (?! \\. )      # concatenation"] },
  { name := "variable.language.self.lua"
    single := "(?x) \x7b\x7bnot_scoped\x7d\x7d \\b ( self ) \\b" },
  { name := "support.function.library.lua"
    single := joinLines [
      "(?x)",
      "\x7b\x7bnot_scoped\x7d\x7d",
      "\\b (",
      "    assert | collectgarbage | dofile | error | getfenv",
      "  | getmetatable | ipairs | loadfile | loadstring | module",
      "  | next | pairs | pcall | print | rawequal | rawget | rawset",
      "  | require | select | setfenv | setmetatable | tonumber",
      "  | tostring | type | unpack | xpcall",
      ") \\b"] },
  { name := "support.function.library.lua"
    single := joinLines [
      "(?x)",
      "\x7b\x7bnot_scoped\x7d\x7d",
      "\\b (",
      "    coroutine \\. (",
      "        create | resume | running | status | wrap | yield )",
      "  | debug \\. (",
      "        debug | [gs]etfenv | [gs]ethook | getinfo | [gs]etlocal",
      "      | [gs]etmetatable | getregistry | [gs]etupvalue | traceback )",
      "  | io \\. (",
      "        close | flush | input | lines | open | output | popen",
      "      | read | tmpfile | type | write )",
      "  | math \\. (",
      "        abs | acos | asin | atan2? | ceil | cosh? | deg | exp",
      "      | floor | fmod | frexp | ldexp | log | log10 | max | min",
      "      | modf | pow | rad | random | randomseed | sinh? | sqrt",
      "      | tanh? )",
      "  | os \\. (",
      "        clock | date | difftime | execute | exit | getenv",
      "      | remove | rename | setlocale | time | tmpname )",
      "  | package \\. (",
      "        cpath | loaded | loadlib | path | preload | seeall )",
      "  | string \\. (",
      "        byte | char | dump | find | format | gmatch | gsub | len",
      "      | lower | match | rep | reverse | sub | upper )",
      "  | table \\. (",
      "        concat | insert | maxn | remove | sort )",
      ") \\b"] },
  { comment := "Goto targets"
    name := "keyword.control.tag.lua"
    single := "::\x7b\x7bidentifier\x7d\x7d::" },
  { comment := "Table members, only after a single dot or a colon"
    name := "variable.other.lua"
    single := "(?x) \x7b\x7bscoped\x7d\x7d \\b ( \x7b\x7bidentifier\x7d\x7d )" },
  { comment := "Anything called like a function"
    name := "support.function.any-method.lua"
    single := joinLines [
      "(?x)",
      "\\b ( \x7b\x7bidentifier\x7d\x7d )",
      "\\b (?= \\s* (?: [(\x7b\"'] | \\[ =* \\[ ) )"] }]

def luaRepository : NameMap Source.Rule := .ofList [
  ("escaped_chars",
    { rules := [
        { name := "constant.character.escape.lua"
          single := "\\\\(\\d\x7b1,3\x7d|[abfnrtv\\\\\"'\\[\\]])" },
        { comment := "Every other escape is invalid"
          name := "invalid.illegal.lua"
          single := "\\\\." }] })]

def lua : Source.Grammar where
  name := "Garry's Mod Lua"
  displayName := "Garry's Mod Lua"
  description := "Lua 5.1 with the C-style comments and operators accepted by Garry's Mod"
  scopeName := "source.lua"
  fileTypes := ["lua"]
  firstLine := "\\A#!.*?\\blua\\b"
  definitions := luaDefinitions
  rules := luaRules
  repository := luaRepository

def luaSettings : Source.Settings := .ofList [
  (".source.lua",
    { commentStart := "-- "
      increaseIndent := joinLines [
        "(?x)",
        "\\b (",
        "    then | else | elseif | do | repeat | function",
        "  | local \\s+ function",
        ") \\b ( (?! \\b end \\b ) . )* $      # block opened and not closed on this line",
        "| \\\x7b \\s* $                        # table constructor"]
      decreaseIndent := joinLines [
        "(?x)",
        "^ \\s* ( ( elseif | else | end ) \\b | \\\x7d )"] })]

/-- The names of the Lua grammar besides its own name and its scope name. -/
def luaAliases : List String := ["lua", "glua", "gmod-lua"]

def luaGrammar : Except CompileError Grammar := Grammar.ofSource lua

end ScopedText.Bundled
