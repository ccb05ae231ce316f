namespace Flashcards.Template

/-!
# Built-in documents
-/

/-- The document that shows what the markup can do. -/
def demo : String := String.join [
  "## Lines starting with \"##\" are comments.\n",
  "## Open a group, then write each term as three lines:\n",
  "## the characters, the pinyin with tone numbers, and the definition.\n",
  "\n",
  "#group greetings\n",
  "你好\n",
  "ni3 hao3\n",
  "hello\n",
  "谢谢\n",
  "xie4xie\n",
  "thank you\n",
  "再见\n",
  "zai4jian4\n",
  "goodbye\n",
  "#endgroup\n",
  "\n",
  "#group colors\n",
  "绿色\n",
  "lv4se4\n",
  "green\n",
  "红色\n",
  "hong2se4\n",
  "red\n",
  "#endgroup\n",
  "\n",
  "## Show a group in one or more formats: reading, writing.\n",
  "#showgroup greetings reading\n",
  "#showgroup colors reading writing\n"]

/-- The document that a new file starts from. -/
def newDocument : String := String.join [
  "## Vocabulary list\n",
  "## #group NAME          open a group\n",
  "## #endgroup            close the current group\n",
  "## #showgroup NAME FMT  print a group; FMT is reading and/or writing\n",
  "\n",
  "#group words\n",
  "#endgroup\n",
  "\n",
  "#showgroup words reading\n"]

end Flashcards.Template
