import PhpAudit.Text.Basic

/-!
# The built-in catalog

The sinks and the mitigating functions that are known without a configuration: the risks that the
arguments of a sink are sensitive to, and the risks that a function removes from its result. They are
written as in a configuration file, as comma separated lists of risk names.
-/

namespace PhpAudit.BuiltIn

/-- A table of texts, from strings. -/
def table (entries : List (String × String)) : List (Text × Text) :=
  entries.map fun e => (.ofString e.1, .ofString e.2)

/-- **The built-in sinks**: output, inclusion, databases, commands, evaluation of code, and dynamic calls. -/
def dangerous : List (Text × Text) := table [
  ("echo", "XSS"),
  ("print", "XSS"),
  ("printf", "XSS"),
  ("vprintf", "XSS"),
  ("exit", "XSS"),
  ("die", "XSS"),
  ("print_r", "XSS"),
  ("var_dump", "XSS"),
  ("header", "XSS"),
  ("include", "FILE_INCLUSION, CODE_EVALUATION"),
  ("include_once", "FILE_INCLUSION, CODE_EVALUATION"),
  ("readfile", "FILE_INCLUSION"),
  ("file_get_contents", "FILE_INCLUSION"),
  ("fopen", "FILE_INCLUSION"),
  ("file", "FILE_INCLUSION"),
  ("mysql_query", "SQL_INJECTION"),
  ("mysql_unbuffered_query", "SQL_INJECTION"),
  ("mysql_db_query", "SQL_INJECTION"),
  ("mysqli_query", "SQL_INJECTION"),
  ("mysqli_real_query", "SQL_INJECTION"),
  ("mysqli_multi_query", "SQL_INJECTION"),
  ("pg_query", "SQL_INJECTION"),
  ("pg_send_query", "SQL_INJECTION"),
  ("sqlite_query", "SQL_INJECTION"),
  ("query", "SQL_INJECTION"),
  ("exec_query", "SQL_INJECTION"),
  ("exec", "COMMAND_INJECTION"),
  ("system", "COMMAND_INJECTION"),
  ("passthru", "COMMAND_INJECTION"),
  ("shell_exec", "COMMAND_INJECTION"),
  ("popen", "COMMAND_INJECTION"),
  ("proc_open", "COMMAND_INJECTION"),
  ("pcntl_exec", "COMMAND_INJECTION"),
  ("eval", "CODE_EVALUATION"),
  ("assert", "CODE_EVALUATION"),
  ("create_function", "CODE_EVALUATION"),
  ("preg_replace", "CODE_EVALUATION"),
  ("call_user_func", "CODE_EVALUATION"),
  ("call_user_func_array", "CODE_EVALUATION"),
  ("$variable", "CODE_EVALUATION"),
  ("$var->$method", "CODE_EVALUATION"),
  ("$this->\x7b$variable\x7d", "CODE_EVALUATION"),
  ("$class::$method", "CODE_EVALUATION"),
  ("new $variable", "CODE_EVALUATION")]

/-- **The built-in mitigating functions.** -/
def mitigating : List (Text × Text) := table [
  ("intval", "SQL_INJECTION, COMMAND_INJECTION, FILE_INCLUSION, XSS, CODE_EVALUATION"),
  ("floatval", "SQL_INJECTION, COMMAND_INJECTION, FILE_INCLUSION, XSS, CODE_EVALUATION"),
  ("boolval", "SQL_INJECTION, COMMAND_INJECTION, FILE_INCLUSION, XSS, CODE_EVALUATION"),
  ("count", "SQL_INJECTION, COMMAND_INJECTION, FILE_INCLUSION, XSS, CODE_EVALUATION"),
  ("strlen", "SQL_INJECTION, COMMAND_INJECTION, FILE_INCLUSION, XSS, CODE_EVALUATION"),
  ("md5", "SQL_INJECTION, COMMAND_INJECTION, FILE_INCLUSION, XSS, CODE_EVALUATION"),
  ("sha1", "SQL_INJECTION, COMMAND_INJECTION, FILE_INCLUSION, XSS, CODE_EVALUATION"),
  ("time", "SQL_INJECTION, COMMAND_INJECTION, FILE_INCLUSION, XSS, CODE_EVALUATION"),
  ("is_numeric", "SQL_INJECTION, COMMAND_INJECTION, FILE_INCLUSION, XSS, CODE_EVALUATION"),
  ("basename", "FILE_INCLUSION"),
  ("htmlspecialchars", "XSS"),
  ("htmlentities", "XSS"),
  ("strip_tags", "XSS"),
  ("urlencode", "XSS"),
  ("rawurlencode", "XSS"),
  ("json_encode", "XSS"),
  ("mysql_real_escape_string", "SQL_INJECTION"),
  ("mysql_escape_string", "SQL_INJECTION"),
  ("mysqli_real_escape_string", "SQL_INJECTION"),
  ("pg_escape_string", "SQL_INJECTION"),
  ("addslashes", "SQL_INJECTION"),
  ("escapeshellarg", "COMMAND_INJECTION"),
  ("escapeshellcmd", "COMMAND_INJECTION")]

end PhpAudit.BuiltIn
