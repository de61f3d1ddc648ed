import ScriptAudit.Command.Bundled.Shape

/-! Text, sprites, audio, tasks and switches. -/
namespace ScriptAudit.Bundled

def screenCommands : List Command :=
  [action 0x0317 "increment_mission_attempts" [],
   action 0x0318 "register_mission_passed" [string],
   action 0x032B "create_pickup_with_ammo" [model, int, int, real, real, real, outOwn],
   action 0x0330 "set_player_never_gets_tired" [any, int],
   action 0x033E "display_text" [real, real, string],
   action 0x033F "set_text_scale" [real, real],
   action 0x0340 "set_text_colour" [int, int, int, int],
   action 0x0341 "set_text_justify" [int],
   action 0x0342 "set_text_centre" [int],
   action 0x0343 "set_text_wrapx" [real],
   action 0x0344 "set_text_centre_size" [real],
   action 0x0345 "set_text_background" [int],
   action 0x0348 "set_text_proportional" [int],
   action 0x0349 "set_text_font" [int],
   action 0x0350 "set_char_stay_in_same_place" [any, int],
   action 0x035F "add_armour_to_char" [any, int],
   action 0x0362 "warp_char_from_car_to_coord" [any, real, real, real],
   action 0x036A "warp_char_into_car" [any, any],
   action 0x0373 "set_camera_behind_player" [],
   action 0x0376 "create_random_char" [real, real, real, outOwn],
   action 0x038D "draw_sprite" [int, real, real, real, real, int, int, int, int],
   action 0x038E "draw_rect" [real, real, real, real, int, int, int, int],
   action 0x038F "load_sprite" [int, string],
   action 0x0390 "load_texture_dictionary" [string],
   action 0x0391 "remove_texture_dictionary" [],
   action 0x0394 "play_mission_passed_tune" [int],
   action 0x0395 "clear_area" [real, real, real, real, int],
   action 0x0396 "freeze_onscreen_timer" [int],
   action 0x0397 "switch_car_siren" [any, int],
   action 0x039E "set_char_cant_be_dragged_out" [any, int],
   condition 0x03A3 "is_char_male" [any],
   action 0x03A4 "script_name" [string],
   action 0x03AB "set_car_strong" [any, int],
   action 0x03BA "clear_area_of_cars" [real, real, real, real, real, real],
   action 0x03C0 "store_car_char_is_in_no_save" [any, outOwn],
   action 0x03C3 "display_onscreen_timer_with_string" [any, int, string],
   condition 0x03CA "does_object_exist" [any],
   action 0x03CB "load_scene" [real, real, real],
   action 0x03CC "add_stuck_car_check" [any, real, int],
   action 0x03CD "remove_stuck_car_check" [any],
   condition 0x03CE "is_car_stuck" [any],
   action 0x03CF "load_mission_audio" [int, int],
   condition 0x03D0 "has_mission_audio_loaded" [int],
   action 0x03D1 "play_mission_audio" [int],
   condition 0x03D2 "has_mission_audio_finished" [int],
   action 0x03D5 "clear_this_print" [string],
   action 0x03D6 "clear_this_big_print" [string],
   action 0x03E5 "print_help" [string],
   action 0x03E6 "clear_help" [],
   action 0x03EB "clear_small_prints" [],
   condition 0x03EE "can_player_start_mission" [any],
   action 0x03F0 "use_text_commands" [int],
   action 0x03F3 "get_car_colours" [any, outOwn, outOwn],
   action 0x03F4 "set_all_cars_can_be_damaged" [int],
   action 0x0407 "get_offset_from_car_in_world_coords" [any, real, real, real, outOwn, outOwn,
      outOwn],
   action 0x0417 "load_and_launch_mission_internal" [int],
   action 0x042C "set_total_number_of_missions" [int],
   action 0x0430 "warp_player_into_car" [any, any],
   action 0x0441 "get_car_model" [any, outOwn],
   condition 0x0449 "is_char_sitting_in_any_car" [any],
   condition 0x0457 "is_player_targetting_char" [any, any],
   action 0x045A "display_text_with_number" [real, real, string, int],
   action 0x045B "display_text_with_2_numbers" [real, real, string, int, int],
   action 0x0470 "get_current_char_weapon" [any, outOwn],
   condition 0x0491 "has_char_got_weapon" [any, int],
   action 0x04B8 "get_char_weapon_in_slot" [any, int, outOwn, outOwn, outOwn],
   action 0x04C4 "get_offset_from_char_in_world_coords" [any, real, real, real, outOwn, outOwn,
      outOwn],
   action 0x04DD "get_char_armour" [any, outOwn],
   action 0x04E4 "request_collision" [real, real],
   action 0x04ED "request_animation" [string],
   condition 0x04EE "has_animation_loaded" [string],
   action 0x04EF "remove_animation" [string],
   action 0x0509 "get_distance_between_coords_2d" [real, real, real, real, outOwn],
   action 0x050A "get_distance_between_coords_3d" [real, real, real, real, real, real, outOwn],
   action 0x0512 "print_help_forever" [string],
   action 0x0555 "remove_weapon_from_char" [any, int],
   action 0x0581 "display_radar" [int],
   action 0x05B6 "table" [buffer],
   action 0x05D3 "task_go_straight_to_coord" [any, real, real, real, int, int],
   action 0x0605 "task_play_anim" [any, string, string, real, int, int, int, int, int],
   action 0x060D "draw_subtitles_before_fade" [int],
   condition 0x0611 "is_char_playing_anim" [any, string],
   action 0x0615 "open_sequence_task" [outOwn],
   action 0x0616 "close_sequence_task" [any],
   action 0x0618 "perform_sequence_task" [any, any],
   action 0x061B "clear_sequence_task" [any],
   action 0x0623 "increment_int_stat" [int, int],
   action 0x0629 "set_int_stat" [int, int],
   action 0x062A "set_float_stat" [int, real],
   action 0x0652 "get_int_stat" [int, outOwn],
   action 0x0653 "get_float_stat" [int, outOwn],
   action 0x0687 "clear_char_tasks" [any],
   action 0x0792 "clear_char_tasks_immediately" [any],
   action 0x0826 "display_hud" [int],
   action 0x0871 "switch_start" [any, int, int, pointer, int, pointer, int, pointer, int, pointer,
      int, pointer, int, pointer, int, pointer, int, pointer],
   action 0x0872 "switch_continue" [int, pointer, int, pointer, int, pointer, int, pointer, int,
      pointer, int, pointer, int, pointer, int, pointer, int, pointer]]

end ScriptAudit.Bundled
